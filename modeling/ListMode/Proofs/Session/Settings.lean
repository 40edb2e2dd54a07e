import ListMode.Proofs.Session.Ownership

/-!
# Writing settings

Settings are written to one producer after the other, and no refusal stops the others. So a write is
known by what becomes of each producer alone, and the fault names those that refused, in the order
of the producers.
-/

namespace ListMode

/-- What becomes of a digitizer or a replay when settings are written to it, or none are, and
whether it refuses. -/
inductive Producer.Settles (p : Producer) : Option Tree → Producer → Bool → Prop where
  /-- Nothing is written to it. -/
  | unnamed : Settles p none p false
  /-- A digitizer takes a configuration that can be read and used. -/
  | takes {old config : Synthetic.Config} {t : Tree} (hdevice : p.device = .synthetic old)
      (hread : Synthetic.Config.ofTree? t = some config) (husable : config.Usable) :
      Settles p (some t) { p with device := .synthetic config } false
  /-- Everything else leaves it as it was. -/
  | refuses {old : Synthetic.Config} {t : Tree} (hdevice : p.device = .synthetic old)
      (hbad : ∀ config, Synthetic.Config.ofTree? t = some config → ¬config.Usable) :
      Settles p (some t) p true
  /-- A replay keeps whatever is written to it. -/
  | replays {recording : List Spill} {interval : Nat} {old t : Tree}
      (hdevice : p.device = .replay recording interval old) :
      Settles p (some t) { p with device := .replay recording interval t } false

namespace Producer

variable {p : Producer} {trees : List (String × Tree)}

/-- The producer after what `trees` holds for it has been written to it. -/
def settled (trees : List (String × Tree)) (p : Producer) : Producer :=
  match Tree.field? p.id trees with
  | none => p
  | some t => (p.write t).2

/-- `trees` holds something for the producer that it does not take. -/
def refuses (trees : List (String × Tree)) (p : Producer) : Bool :=
  (Tree.field? p.id trees).any fun t => !(p.write t).1.toBool

theorem write_usable {old config : Synthetic.Config} {t : Tree} (hdevice : p.device = .synthetic old)
    (hread : Synthetic.Config.ofTree? t = some config) (husable : config.Usable) :
    p.write t = (.ok (), { p with device := .synthetic config }) := by
  have hfault := (Synthetic.Config.fault?_eq_none_iff config).mpr husable
  unfold write
  rw [hdevice]
  dsimp only
  rw [hread]
  dsimp only
  rw [hfault]

theorem write_unusable {old : Synthetic.Config} {t : Tree} (hdevice : p.device = .synthetic old)
    (hbad : ∀ config, Synthetic.Config.ofTree? t = some config → ¬config.Usable) :
    (p.write t).1.toBool = false ∧ (p.write t).2 = p := by
  unfold write
  rw [hdevice]
  dsimp only
  split
  · exact ⟨rfl, rfl⟩
  · rename_i config hread
    split
    · exact ⟨rfl, rfl⟩
    · rename_i hfault
      exact absurd ((Synthetic.Config.fault?_eq_none_iff config).mp hfault) (hbad config hread)

theorem settles (hreal : ∀ x, p.device ≠ .scripted x) (trees : List (String × Tree)) :
    p.Settles (Tree.field? p.id trees) (p.settled trees) (p.refuses trees) := by
  unfold settled refuses
  cases Tree.field? p.id trees with
  | none => exact .unnamed
  | some t =>
    dsimp only [Option.any_some]
    cases hdevice : p.device with
    | synthetic old =>
      by_cases hgood : ∃ config, Synthetic.Config.ofTree? t = some config ∧ config.Usable
      · obtain ⟨config, hread, husable⟩ := hgood
        rw [write_usable hdevice hread husable]
        exact .takes hdevice hread husable
      · have hbad : ∀ config, Synthetic.Config.ofTree? t = some config → ¬config.Usable :=
          fun config hread husable => hgood ⟨config, hread, husable⟩
        obtain ⟨hresult, hsame⟩ := write_unusable hdevice hbad
        rw [hresult, hsame]
        exact .refuses hdevice hbad
    | replay recording interval old =>
      have hwrite : p.write t = (.ok (), { p with device := .replay recording interval t }) := by
        unfold write
        rw [hdevice]
      rw [hwrite]
      exact .replays hdevice
    | scripted x => exact absurd hdevice (hreal x)

/-- A producer keeps its identifier. -/
theorem settled_id (trees : List (String × Tree)) (p : Producer) : (p.settled trees).id = p.id := by
  unfold settled
  split
  · rfl
  · rename_i t _
    obtain ⟨device, hwrite, -⟩ := write_eq p t
    rw [hwrite]

end Producer

namespace Session

/-! ## One producer after the other -/

theorem setProducer_self {s : Session} {i : Nat} {p : Producer} (hp : s.producers[i]? = some p) :
    s.setProducer i p = s := by
  obtain ⟨hi, rfl⟩ := List.getElem?_eq_some_iff.mp hp
  unfold setProducer
  rw [List.set_getElem_self]

/-- Writing to the producer at place `i` settles it and notes its refusal. -/
theorem writeOne_eq (trees : List (String × Tree)) (refused : List String) {s : Session} {i : Nat}
    {p : Producer} (hp : s.producers[i]? = some p) :
    writeOne trees (refused, s) i =
      (if p.refuses trees then refused ++ [p.id] else refused,
        s.setProducer i (p.settled trees)) := by
  unfold writeOne Producer.refuses Producer.settled
  dsimp only
  rw [hp]
  dsimp only
  cases Tree.field? p.id trees with
  | none =>
    rw [setProducer_self hp]
    rfl
  | some t =>
    have hwrite : s.writeProducer i t = ((p.write t).1, s.setProducer i (p.write t).2) := by
      unfold writeProducer
      rw [hp]
    dsimp only
    rw [hwrite]
    split
    · rename_i hresult
      obtain ⟨hok, rfl⟩ := Prod.mk.inj hresult
      simp [hok, Except.toBool]
    · rename_i hresult
      obtain ⟨herror, rfl⟩ := Prod.mk.inj hresult
      simp [herror, Except.toBool]

/-- The session when the first `k` producers have been settled. -/
def settledTo (trees : List (String × Tree)) (s : Session) (k : Nat) : Session :=
  { s with producers := (s.producers.take k).map (·.settled trees) ++ s.producers.drop k }

theorem settledTo_length (trees : List (String × Tree)) (s : Session) :
    s.settledTo trees s.producers.length =
      { s with producers := s.producers.map (·.settled trees) } := by
  unfold settledTo
  rw [List.take_length, List.drop_length, List.append_nil]

/-- The next producer is as it was, and can be settled. -/
theorem settledTo_succ (trees : List (String × Tree)) {s : Session} {k : Nat} {p : Producer}
    (hp : s.producers[k]? = some p) :
    (s.settledTo trees k).producers[k]? = some p ∧
      (s.settledTo trees k).setProducer k (p.settled trees) = s.settledTo trees (k + 1) := by
  obtain ⟨hk, rfl⟩ := List.getElem?_eq_some_iff.mp hp
  have hlength : ((s.producers.take k).map (·.settled trees)).length = k := by
    rw [List.length_map, List.length_take]
    omega
  have hlast : s.producers.take (k + 1) = s.producers.take k ++ [s.producers[k]] :=
    List.take_succ_eq_append_getElem hk
  have hdrop : s.producers.drop k = s.producers[k] :: s.producers.drop (k + 1) :=
    List.drop_eq_getElem_cons hk
  unfold settledTo setProducer
  dsimp only
  constructor
  · rw [List.getElem?_append_right (by omega), hlength, hdrop, Nat.sub_self]
    rfl
  · rw [List.set_append_right _ _ (Nat.le_of_eq hlength), hlength, hdrop, Nat.sub_self,
      List.set_cons_zero, hlast, List.map_append, List.append_assoc]
    rfl

/-- After `k` places, the first `k` producers are settled and the others are as before. -/
theorem foldl_writeOne (trees : List (String × Tree)) (s : Session) {k : Nat}
    (hk : k ≤ s.producers.length) :
    (List.range k).foldl (writeOne trees) ([], s) =
      (((s.producers.take k).filter (·.refuses trees)).map (·.id), s.settledTo trees k) := by
  induction k with
  | zero => rfl
  | succ k ih =>
    have hp : s.producers[k]? = some s.producers[k] := List.getElem?_eq_getElem hk
    obtain ⟨hnext, hsettled⟩ := settledTo_succ trees hp
    have hlast : s.producers.take (k + 1) = s.producers.take k ++ [s.producers[k]] :=
      List.take_succ_eq_append_getElem hk
    rw [List.range_succ, List.foldl_append, ih (by omega), List.foldl_cons, List.foldl_nil,
      writeOne_eq trees _ hnext, hsettled, hlast, List.filter_append, List.map_append]
    cases hrefuses : Producer.refuses trees s.producers[k] with
    | true => simp [hrefuses]
    | false => simp [hrefuses]

/-- Settling the first `k` producers amounts to one write for each of them that is named. -/
theorem writes_of_settledTo (trees : List (String × Tree)) (s : Session) {k : Nat}
    (hk : k ≤ s.producers.length) :
    ∃ writes : List (Nat × Tree),
      (∀ w ∈ writes, ∃ p, s.producers[w.1]? = some p ∧ Tree.field? p.id trees = some w.2) ∧
      s.after? (writes.map fun w => .write w.1 w.2) = some (s.settledTo trees k) := by
  induction k with
  | zero => exact ⟨[], nofun, rfl⟩
  | succ k ih =>
    have hp : s.producers[k]? = some s.producers[k] := List.getElem?_eq_getElem hk
    obtain ⟨hnext, hsettled⟩ := settledTo_succ trees hp
    obtain ⟨writes, hnamed, hafter⟩ := ih (by omega)
    rw [← hsettled]
    unfold Producer.settled
    cases hfield : Tree.field? s.producers[k].id trees with
    | none =>
      dsimp only
      rw [setProducer_self hnext]
      exact ⟨writes, hnamed, hafter⟩
    | some tree =>
      refine ⟨writes ++ [(k, tree)], fun w hw => ?_, ?_⟩
      · rcases List.mem_append.mp hw with hw | hw
        · exact hnamed w hw
        · obtain rfl := List.mem_singleton.mp hw
          exact ⟨_, hp, hfield⟩
      · have hwrite : (s.settledTo trees k).writeProducer k tree =
            ((s.producers[k].write tree).1,
              (s.settledTo trees k).setProducer k (s.producers[k].write tree).2) := by
          unfold writeProducer
          rw [hnext]
        rw [List.map_append, after?_append, hafter]
        show some ((s.settledTo trees k).writeProducer k tree).2 = _
        rw [hwrite]

/-- What a write answers when the producers named refuse. -/
def verdict (refused : List String) : Except Fault Unit :=
  if refused = [] then .ok ()
  else
    let names := ", ".intercalate refused
    .error (.settings s!"rejected by: {names}")

/-- A write settles every producer. -/
theorem writeSettings_obj (s : Session) (trees : List (String × Tree)) :
    s.writeSettings (.obj trees) =
      (verdict ((s.producers.filter (·.refuses trees)).map (·.id)),
        { s with producers := s.producers.map (·.settled trees) }) := by
  unfold writeSettings places
  dsimp only
  rw [foldl_writeOne trees s (Nat.le_refl _), settledTo_length, List.take_length]
  unfold verdict
  split
  · rename_i hnone
    rw [if_pos (List.isEmpty_iff.mp hnone)]
  · rename_i hsome
    rw [if_neg fun he => hsome (List.isEmpty_iff.mpr he)]

/-- Writing what is no object fails and changes nothing. Writing an object attempts every producer
whose identifier is one of its names: a digitizer takes what can be read and used and is left as it
was by everything else, and a replay takes everything. Nothing else changes, names of no producer
have no effect, and the write succeeds if nobody refuses and otherwise names exactly those that do,
in the order of the producers. -/
theorem settings_written {s : Session} (hreal : ∀ p ∈ s.producers, ∀ x, p.device ≠ .scripted x)
    (settings : Tree) :
    ((∀ trees, settings ≠ .obj trees) → s.writeSettings settings =
      (.error (.settings "settings must be an object keyed by producer id"), s)) ∧
    ∀ trees, settings = .obj trees →
      (∃ outcomes : List (Producer × Bool),
        List.Forall₂ (fun p o => p.Settles (Tree.field? p.id trees) o.1 o.2) s.producers outcomes ∧
        s.writeSettings settings = (verdict ((outcomes.filter (·.2)).map (·.1.id)),
          { s with producers := outcomes.map (·.1) })) ∧
      ∀ trees', (∀ p ∈ s.producers, Tree.field? p.id trees' = Tree.field? p.id trees) →
        s.writeSettings (.obj trees') = s.writeSettings settings := by
  refine ⟨fun hno => ?_, ?_⟩
  · unfold writeSettings
    split
    · rename_i trees
      exact absurd rfl (hno trees)
    · rfl
  rintro trees rfl
  refine ⟨⟨s.producers.map fun p => (p.settled trees, p.refuses trees), ?_, ?_⟩, ?_⟩
  · exact List.forall₂_map_right_iff.mpr (List.forall₂_same.mpr fun p hp => p.settles (hreal p hp) trees)
  · have hids : (fun p : Producer => (p.settled trees).id) = (·.id) :=
      funext fun p => p.settled_id trees
    rw [writeSettings_obj, List.filter_map, List.map_map, List.map_map]
    exact congrArg (fun f => (verdict ((s.producers.filter (·.refuses trees)).map f), _)) hids.symm
  · intro trees' hsame
    have hrefuses : s.producers.filter (·.refuses trees') = s.producers.filter (·.refuses trees) :=
      List.filter_congr fun p hp => by rw [Producer.refuses, hsame p hp, Producer.refuses]
    have hsettled : s.producers.map (·.settled trees') = s.producers.map (·.settled trees) :=
      List.map_congr_left fun p hp => by rw [Producer.settled, hsame p hp, Producer.settled]
    rw [writeSettings_obj, writeSettings_obj, hrefuses, hsettled]

/-- Two digitizers, and a replay of nothing. -/
def mixedSession : Session :=
  { pairSession with producers := pairSession.producers ++ [.replay "r" [] 10] }

/-- Settings for every producer of it, and for nobody. The first digitizer cannot do without
channels. -/
def mixedSettings : List (String × Tree) :=
  [("a", .obj [("channels", .arr [])]), ("b", moved 2), ("r", .null), ("x", .null)]

/-- The first refuses, and the second and third are written to all the same. -/
theorem settings_written_refusal :
    (∀ p ∈ mixedSession.producers, ∀ x, p.device ≠ .scripted x) ∧
    (mixedSession.writeSettings (.obj mixedSettings)).1 = .error (.settings "rejected by: a") ∧
    (mixedSession.writeSettings (.obj mixedSettings)).2.producers.map (·.channels) =
      [[0], [2], []] ∧
    ∃ outcomes : List (Producer × Bool),
      List.Forall₂ (fun p o => p.Settles (Tree.field? p.id mixedSettings) o.1 o.2)
        mixedSession.producers outcomes ∧
      (mixedSession.writeSettings (.obj mixedSettings)).2 =
        { mixedSession with producers := outcomes.map (·.1) } := by
  have hreal : ∀ p ∈ mixedSession.producers, ∀ x, p.device ≠ .scripted x := by
    intro p hp
    rcases List.mem_cons.mp hp with rfl | hp
    · exact fun _ => nofun
    · rcases List.mem_cons.mp hp with rfl | hp
      · exact fun _ => nofun
      · exact List.mem_singleton.mp hp ▸ fun _ => nofun
  have hrefused : (mixedSession.producers.filter (·.refuses mixedSettings)).map (·.id) = ["a"] := by
    decide +kernel
  obtain ⟨⟨outcomes, hsettles, hwritten⟩, -⟩ := (settings_written hreal _).2 mixedSettings rfl
  refine ⟨hreal, ?_, by decide +kernel, outcomes, hsettles, congrArg Prod.snd hwritten⟩
  rw [writeSettings_obj, hrefused]
  rfl

end Session

end ListMode
