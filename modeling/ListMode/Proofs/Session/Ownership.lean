import ListMode.Proofs.Producer.Slot
import ListMode.Proofs.Registry
import ListMode.Proofs.Session.Operations

/-!
# Owners of channels

When a session is built no two of its producers read one channel. Only settings that are written
change what a producer reads, and a producer looks at its own settings alone. So the channels stay
apart exactly as long as every write names channels that no other producer reads.
-/

namespace ListMode

namespace Producer

section

variable {p p' : Producer} {op : Operation} {time : Nat} {now : Instant} {handed : List Delivery}

/-! ## What an operation leaves alone -/

theorem channels_halt {x : Scripted} (h : p.device = .scripted x) :
    (p.halt x).2.2.channels = p.channels := by
  unfold halt channels
  rw [h]

theorem channels_start (p : Producer) (l : Launch) : (p.start l).2.2.channels = p.channels := by
  obtain ⟨id, status, device, slot⟩ := p
  unfold start
  dsimp only
  cases device with
  | synthetic | replay =>
    dsimp only
    split <;> rfl
  | scripted x =>
    dsimp only
    split <;> rfl

theorem channels_beginStop (p : Producer) (time : Nat) :
    (p.beginStop time).2.2.channels = p.channels := by
  unfold beginStop
  split
  · rename_i x hx
    split
    · rfl
    · exact channels_halt hx
  · split <;> rfl

theorem channels_endStop {stopping : Stopping} {wasRunning : Bool}
    (h : p.endStop? time stopping = some (wasRunning, handed, p')) : p'.channels = p.channels := by
  unfold endStop? at h
  split at h
  · obtain ⟨-, h⟩ := Prod.mk.inj (Option.some.inj h)
    obtain ⟨-, rfl⟩ := Prod.mk.inj h
    rfl
  · obtain ⟨_, -, h⟩ := Option.map_eq_some_iff.mp h
    obtain ⟨-, h⟩ := Prod.mk.inj h
    obtain ⟨-, rfl⟩ := Prod.mk.inj h
    rfl
  · split at h
    · split at h
      · rename_i x hx
        obtain ⟨-, h⟩ := Prod.mk.inj (Option.some.inj h)
        obtain ⟨-, rfl⟩ := Prod.mk.inj h
        exact channels_halt hx
      · obtain ⟨-, h⟩ := Prod.mk.inj (Option.some.inj h)
        obtain ⟨-, rfl⟩ := Prod.mk.inj h
        rfl
    · nomatch h

theorem channels_tick {n : Nat} (h : p.tick? n time now = some (handed, p')) :
    p'.channels = p.channels := by
  obtain ⟨slot, -, rfl⟩ := polls_of_tick? h
  rfl

theorem channels_notice {n : Nat} (h : p.notice? n time now = some (handed, p')) :
    p'.channels = p.channels := by
  obtain ⟨slot, -, rfl⟩ := polls_of_notice? h
  rfl

theorem channels_stop (p : Producer) (time : Nat) (now : Instant) :
    (p.stop time now).2.2.channels = p.channels := by
  have hbegin := p.channels_beginStop time
  unfold stop
  generalize p.beginStop time = begun at hbegin ⊢
  obtain ⟨stopping, first, p₁⟩ := begun
  replace hbegin : p₁.channels = p.channels := hbegin
  -- The task that is waited for may see the request before the stop is complete.
  have hnotice : ∀ request : Polling.Request,
      ((p₁.notice? request.number time now).getD ([], p₁)).2.channels = p.channels := by
    intro request
    cases hn : p₁.notice? request.number time now with
    | none => exact hbegin
    | some noticed => exact (channels_notice hn).trans hbegin
  cases stopping with
  | complete wasRunning => exact hbegin
  | task request =>
    dsimp only
    split
    · rename_i he
      exact (channels_endStop he).trans (hnotice request)
    · exact hnotice request
  | delay wake =>
    dsimp only
    split
    · rename_i he
      exact (channels_endStop he).trans hbegin
    · exact hbegin

theorem channels_shutdown (p : Producer) (time : Nat) (now : Instant) :
    (p.shutdown time now).2.2.channels = p.channels := by
  unfold shutdown
  split
  · split <;> rfl
  · exact p.channels_stop time now

/-- No operation but a write changes the channels of a producer. -/
theorem channels_of_operate (h : p.operate? time now op = some (handed, p'))
    (hwrite : ∀ settings, op ≠ .write settings) : p'.channels = p.channels := by
  cases op with
  | boot =>
    obtain ⟨-, rfl⟩ := Prod.mk.inj (Option.some.inj h)
    obtain ⟨status, hboot⟩ := boot_eq p
    rw [hboot]
    rfl
  | start l => exact (Prod.mk.inj (Option.some.inj h)).2 ▸ channels_start p l
  | ask => exact (Prod.mk.inj (Option.some.inj h)).2 ▸ channels_beginStop p time
  | await stopping =>
    obtain ⟨⟨wasRunning, result⟩, he, rfl⟩ := Option.map_eq_some_iff.mp h
    exact channels_endStop he
  | tick n => exact channels_tick h
  | notice n => exact channels_notice h
  | shutdown => exact (Prod.mk.inj (Option.some.inj h)).2 ▸ channels_shutdown p time now
  | write settings => exact absurd rfl (hwrite settings)

end

end Producer

namespace Session

/-- No two producers read one channel. -/
def Apart (s : Session) : Prop :=
  ∀ (i j : Nat) (p q : Producer), s.producers[i]? = some p → s.producers[j]? = some q → i ≠ j →
    p.channels.Disjoint q.channels

/-- A write leaves its producer with channels that no other producer reads. -/
def WritesApart (s : Session) : Act → Prop
  | .write i settings => ∀ (j : Nat) (p q : Producer), s.producers[i]? = some p →
      s.producers[j]? = some q → i ≠ j → (p.write settings).2.channels.Disjoint q.channels
  | _ => True

/-- So does every write. -/
def Considerate (s : Session) : List Act → Prop
  | [] => True
  | a :: rest => s.WritesApart a ∧ ∀ s' ∈ s.act? a, s'.Considerate rest

section

variable {s s' t : Session} {a : Act} {acts : List Act}

/-! ## Writes -/

theorem apart_of_channels_eq (h : s.Apart) {i : Nat} {p p' : Producer}
    (hp : s.producers[i]? = some p) (hs : s'.producers = s.producers.set i p')
    (hchannels : p'.channels = p.channels) : s'.Apart := by
  have hold : ∀ (j : Nat) (x : Producer), s'.producers[j]? = some x →
      ∃ y, s.producers[j]? = some y ∧ x.channels = y.channels := by
    intro j x hx
    rw [hs] at hx
    by_cases hj : i = j
    · subst hj
      rw [List.getElem?_set_self (List.getElem?_eq_some_iff.mp hp).1] at hx
      exact ⟨p, hp, Option.some.inj hx ▸ hchannels⟩
    · rw [List.getElem?_set_ne hj] at hx
      exact ⟨x, hx, rfl⟩
  intro j k x y hx hy hne
  obtain ⟨x', hx', hx⟩ := hold j x hx
  obtain ⟨y', hy', hy⟩ := hold k y hy
  rw [hx, hy]
  exact h j k x' y' hx' hy' hne

/-- Only the channels of the producer that is written to count. -/
theorem apart_write (h : s.Apart) {i : Nat} {p p' : Producer} (hp : s.producers[i]? = some p)
    (hs : s'.producers = s.producers.set i p') :
    s'.Apart ↔ ∀ (j : Nat) (q : Producer), s.producers[j]? = some q → i ≠ j →
      p'.channels.Disjoint q.channels := by
  have hself : s'.producers[i]? = some p' := by
    rw [hs]
    exact List.getElem?_set_self (List.getElem?_eq_some_iff.mp hp).1
  have hother : ∀ j, i ≠ j → s'.producers[j]? = s.producers[j]? := by
    intro j hj
    rw [hs, List.getElem?_set_ne hj]
  constructor
  · intro hapart j q hq hj
    exact hapart i j p' q hself (hother j hj ▸ hq) hj
  · intro hnew j k x y hx hy hne
    by_cases hj : i = j
    · subst hj
      rw [hself] at hx
      rw [hother k hne] at hy
      exact Option.some.inj hx ▸ hnew k y hy hne
    · rw [hother j hj] at hx
      by_cases hk : i = k
      · subst hk
        rw [hself] at hy
        exact Option.some.inj hy ▸ List.disjoint_comm.mp (hnew j x hx hj)
      · rw [hother k hk] at hy
        exact h j k x y hx hy hne

theorem apart_writeProducer (h : s.Apart) (i : Nat) (settings : Tree) :
    (s.writeProducer i settings).2.Apart ↔ s.WritesApart (.write i settings) := by
  unfold writeProducer
  cases hp : s.producers[i]? with
  | none => exact iff_of_true h fun j p q hx => nomatch hp.symm.trans hx
  | some p =>
    refine (apart_write h hp rfl).trans ⟨fun hnew j x q hx hq hij => ?_, fun hnew j q hq hij => ?_⟩
    · obtain rfl := Option.some.inj (hp.symm.trans hx)
      exact hnew j q hq hij
    · exact hnew j p q hp hq hij

/-- Actions other than writes keep the channels apart. -/
theorem apart_other (h : s.Apart) (ha : s.act? a = some s')
    (hwrite : ∀ i settings, a ≠ .write i settings) : s'.Apart := by
  rcases operates ha with hrests | ⟨i, p, op, handed, ho⟩
  · unfold Apart
    rw [hrests.producers_eq]
    exact h
  · obtain ⟨p', hop, hproducers⟩ := ho.after
    refine apart_of_channels_eq h ho.before hproducers (Producer.channels_of_operate hop ?_)
    rintro settings rfl
    exact hwrite i settings ho.permits

/-- An action keeps the channels apart, unless it is a write that does not. -/
theorem apart_act (h : s.Apart) (ha : s.act? a = some s') : s'.Apart ↔ s.WritesApart a := by
  cases a with
  | write i settings =>
    obtain rfl := Option.some.inj ha
    exact apart_writeProducer h i settings
  | _ => exact iff_of_true (apart_other h ha fun _ _ => nofun) trivial

/-- Settings that are written by identifier are written to one producer after the other. -/
theorem writes_of_writeSettings (s : Session) (settings : Tree) :
    ∃ acts : List Act, (∀ a ∈ acts, ∃ i tree, a = .write i tree) ∧
      s.after? acts = some (s.writeSettings settings).2 := by
  have hone : ∀ (trees : List (String × Tree)) (state : List String × Session) (i : Nat),
      ∃ acts : List Act, (∀ a ∈ acts, ∃ i tree, a = .write i tree) ∧
        state.2.after? acts = some (writeOne trees state i).2 := by
    rintro trees ⟨refused, s⟩ i
    unfold writeOne
    dsimp only
    split
    · exact ⟨[], nofun, rfl⟩
    · split
      · exact ⟨[], nofun, rfl⟩
      · rename_i tree _
        refine ⟨[.write i tree], fun a ha => ⟨i, tree, List.mem_singleton.mp ha⟩, ?_⟩
        show some (s.writeProducer i tree).2 = _
        split
        · rename_i hresult
          rw [hresult]
        · rename_i hresult
          rw [hresult]
  unfold writeSettings
  split
  · rename_i trees
    obtain ⟨acts, hacts, hafter⟩ := acts_of_foldl Prod.snd (hone trees) s.places ([], s)
    refine ⟨acts, hacts, hafter.trans ?_⟩
    dsimp only
    split <;> rfl
  · exact ⟨[], nofun, rfl⟩

/-! ## Sessions of a setup -/

/-- A session is built only if its producers have channels of their own. -/
theorem apart_ofSetup {setup : Setup} {drivers : Registry} {clock : Nat → Instant}
    {entropy : Nat → Random.Source} (h : ofSetup setup drivers clock entropy = .ok s) :
    s.Apart := by
  obtain ⟨-, ps, hall, rfl⟩ := ofSetup_eq_ok h
  have hchannels := Registry.nodup_channels (Registry.createAll_eq_ok hall).2
  have hpairs := (List.nodup_flatMap.mp hchannels).2
  rw [List.pairwise_iff_getElem] at hpairs
  intro i j p q hp hq hij
  obtain ⟨hi, rfl⟩ := List.getElem?_eq_some_iff.mp hp
  obtain ⟨hj, rfl⟩ := List.getElem?_eq_some_iff.mp hq
  rcases Nat.lt_or_gt_of_ne hij with hlt | hgt
  · exact hpairs i j hi hj hlt
  · exact List.disjoint_comm.mp (hpairs j i hj hi hgt)

theorem apart_along (h : s.Apart) (ha : s.after? acts = some t) :
    s.Considerate acts ↔ ∀ before u, before <+: acts → s.after? before = some u → u.Apart := by
  induction acts generalizing s with
  | nil =>
    refine iff_of_true trivial fun before u hbefore hu => ?_
    rw [List.prefix_nil.mp hbefore] at hu
    exact Option.some.inj hu ▸ h
  | cons a rest ih =>
    obtain ⟨s₁, hs₁, hafter⟩ := Option.bind_eq_some_iff.mp ha
    have hfirst := apart_act h hs₁
    constructor
    · rintro ⟨hwrites, hrest⟩ before u hbefore hu
      cases before with
      | nil => exact Option.some.inj hu ▸ h
      | cons b before =>
        obtain ⟨rfl, hprefix⟩ := List.cons_prefix_cons.mp hbefore
        obtain ⟨s₂, hs₂, hu⟩ := Option.bind_eq_some_iff.mp hu
        obtain rfl := Option.some.inj (hs₁.symm.trans hs₂)
        exact (ih (hfirst.mpr hwrites) hafter).mp (hrest s₁ hs₁) before u hprefix hu
    · intro hall
      have hs₁' : s₁.Apart := by
        refine hall [a] s₁ (List.prefix_append [a] rest) ?_
        rw [after?, hs₁]
        rfl
      refine ⟨hfirst.mp hs₁', fun s₂ hs₂ => ?_⟩
      obtain rfl := Option.some.inj (hs₁.symm.trans hs₂)
      refine (ih hs₁' hafter).mpr fun before u hbefore hu => ?_
      refine hall (a :: before) u (List.cons_prefix_cons.mpr ⟨rfl, hbefore⟩) ?_
      rw [after?, hs₁]
      exact hu

/-- In a session that is built for a setup, by whatever drivers, no two producers ever read one
channel, as long as every write leaves its producer with channels that no other producer reads, and
no longer. Settings written by identifier are such writes, one after the other. -/
theorem channels_apart {setup : Setup} {drivers : Registry} {clock : Nat → Instant}
    {entropy : Nat → Random.Source} (hsetup : ofSetup setup drivers clock entropy = .ok s)
    (hacts : s.after? acts = some t) :
    (s.Considerate acts ↔
      ∀ before u, before <+: acts → s.after? before = some u → u.Apart) ∧
    ∀ settings, ∃ writes : List Act, (∀ a ∈ writes, ∃ i tree, a = .write i tree) ∧
      t.after? writes = some (t.writeSettings settings).2 :=
  ⟨apart_along (apart_ofSetup hsetup) hacts, writes_of_writeSettings t⟩

end

/-- A setup of two digitizers, each with a channel of its own. -/
def pairSetup : Setup where
  application := ⟨"daq", "info"⟩
  schedule := ⟨⟨1000, 50⟩, none⟩
  detectors := []
  producers := [⟨"a", "mock", true, .obj [("channels", .arr [.int 0])]⟩,
    ⟨"b", "mock", true, .obj [("channels", .arr [.int 1])]⟩]

def pairSession : Session :=
  .new ⟨1000, 50⟩ [] [.synthetic "a" { (default : Synthetic.Config) with channels := [0] },
    .synthetic "b" { (default : Synthetic.Config) with channels := [1] }] (fun _ => default)
    fun _ => default

theorem ofSetup_pair :
    ofSetup pairSetup .builtin (fun _ => default) (fun _ => default) = .ok pairSession := by
  with_unfolding_all rfl

/-- Settings that move a digitizer to another channel. -/
def moved (channel : Int) : Tree := .obj [("channels", .arr [.int channel])]

/-- The second digitizer moves to a channel that nobody reads. -/
theorem channels_apart_pair :
    ofSetup pairSetup .builtin (fun _ => default) (fun _ => default) = .ok pairSession ∧
    ∃ t, pairSession.after? [.write 1 (moved 2)] = some t ∧
      t.producers.map (·.channels) = [[0], [2]] ∧ t.Apart := by
  obtain ⟨t, hacts, ht⟩ : ∃ t, pairSession.after? [.write 1 (moved 2)] = some t ∧
      t.producers.map (·.channels) = [[0], [2]] := ⟨_, rfl, by decide +kernel⟩
  have hnew : (pairSession.producers[1]?).map (fun p => (p.write (moved 2)).2.channels) =
      some [2] := by decide +kernel
  have hfirst : (pairSession.producers[0]?).map (·.channels) = some [0] := by decide +kernel
  have hconsiderate : pairSession.Considerate [.write 1 (moved 2)] := by
    refine ⟨fun j p q hp hq hj => ?_, fun _ _ => trivial⟩
    rw [hp, Option.map_some, Option.some_inj] at hnew
    match j with
    | 0 =>
      rw [hq, Option.map_some, Option.some_inj] at hfirst
      rw [hnew, hfirst]
      exact List.singleton_disjoint.mpr (by decide)
    | 1 => exact absurd rfl hj
    | _ + 2 => nomatch hq
  obtain ⟨hapart, -⟩ := channels_apart ofSetup_pair hacts
  exact ⟨ofSetup_pair, t, hacts, ht, hapart.mp hconsiderate _ t List.prefix_rfl hacts⟩

/-- What does not hold of every write. A digitizer that is written the channel of another accepts
it, and then both read the channel. -/
theorem write_shares_channel :
    let s := pairSession.writeSettings (.obj [("b", moved 0)])
    ofSetup pairSetup .builtin (fun _ => default) (fun _ => default) = .ok pairSession ∧
    s.1.toBool = true ∧ s.2.producers.map (·.channels) = [[0], [0]] ∧ ¬s.2.Apart := by
  have hboth : (pairSession.writeSettings (.obj [("b", moved 0)])).1.toBool = true ∧
      (pairSession.writeSettings (.obj [("b", moved 0)])).2.producers.map (·.channels) =
        [[0], [0]] := by decide +kernel
  refine ⟨ofSetup_pair, hboth.1, hboth.2, fun hapart => ?_⟩
  have hplace := fun j : Nat => congrArg (fun l : List (List Channel) => l[j]?) hboth.2
  simp only [List.getElem?_map] at hplace
  obtain ⟨p, hp, hfirst⟩ := Option.map_eq_some_iff.mp (hplace 0)
  obtain ⟨q, hq, hsecond⟩ := Option.map_eq_some_iff.mp (hplace 1)
  have hdisjoint := hapart 0 1 p q hp hq nofun
  rw [hfirst, hsecond] at hdisjoint
  exact hdisjoint (List.mem_singleton.mpr rfl) (List.mem_singleton.mpr rfl)

end Session

end ListMode
