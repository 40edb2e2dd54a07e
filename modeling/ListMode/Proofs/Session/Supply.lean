import ListMode.Proofs.Session.Protocol
import ListMode.Proofs.Synthetic.Digitizer
import ListMode.Proofs.Synthetic.Weave

/-!
# What reaches the queue of a run of digitizers

The producers of a session are digitizers that keep their configurations. `Supply` says of the queue
of a run that each of them has handed over there what its acquisition gave, and nothing but that
reached the queue. Every action keeps this up; a producer enters when the run starts it.
-/

namespace ListMode

open Synthetic (Member strand readsOf Flow Running Over)

namespace Producer

section

variable {p p' : Producer} {n : Nat} {time : Nat} {now : Instant} {op : Operation}
  {more : List Delivery}

/-- What an operation hands over comes from a task. -/
theorem Real.handed_operate (h : p.Real) (ho : p.operate? time now op = some (more, p')) :
    ∀ d ∈ more, ∃ t ∈ p.slot.tasks, t.work.queue = d.queue := by
  have hmoves : ∀ q : Producer, p.Moves more q → ∀ d ∈ more, ∃ t ∈ p.slot.tasks,
      t.work.queue = d.queue := fun q hm d hd => (hm.handed d hd).2
  cases op with
  | boot =>
    obtain ⟨rfl, -⟩ := Prod.mk.inj (Option.some.inj ho)
    exact nofun
  | start l =>
    have hresult : (p.start l).2 = (more, p') := Option.some.inj ho
    have hnil := (h.start l).handed
    rw [hresult] at hnil
    obtain rfl : more = [] := hnil
    exact nofun
  | ask =>
    have hresult : (p.beginStop time).2 = (more, p') := Option.some.inj ho
    obtain ⟨-, hnil, -⟩ := h.beginStop time
    rw [hresult] at hnil
    obtain rfl : more = [] := hnil
    exact nofun
  | await stopping =>
    obtain ⟨⟨wasRunning, more', p₁⟩, he, hresult⟩ := Option.map_eq_some_iff.mp ho
    obtain ⟨rfl, -⟩ := Prod.mk.inj hresult
    obtain ⟨-, rfl, -⟩ := h.endStop he
    exact nofun
  | tick k => exact hmoves p' (h.tick ho).1
  | notice k => exact hmoves p' (h.notice ho).1
  | shutdown =>
    have hresult : (p.shutdown time now).2 = (more, p') := Option.some.inj ho
    have hshutdown := h.shutdown time now
    rw [hresult] at hshutdown
    exact hmoves p' hshutdown
  | write settings =>
    obtain ⟨rfl, -⟩ := Prod.mk.inj (Option.some.inj ho)
    exact nofun

/-- So does what it reads out. -/
theorem feeds_of_readsBy {a : Synthetic.Acquisition} (ha : a ∈ p.readsBy n op) :
    ∃ t ∈ p.slot.tasks, t.work.queue = n := by
  cases op with
  | tick k =>
    have hread : a ∈ p.readout n k := ha
    unfold readout at hread
    split at hread
    · rename_i htask
      split at hread
      · rename_i hq
        exact ⟨_, (Polling.Slot.task?_eq_some htask).1, hq⟩
      · nomatch hread
    · nomatch hread
  | _ => nomatch ha

theorem feeding_eq_nil (h : ∀ t ∈ p.slot.tasks, t.work.queue ≠ n) : p.feeding n = [] := by
  unfold feeding feedingOf
  rw [List.map_eq_nil_iff, List.filter_eq_nil_iff]
  intro t ht hq
  exact h t ht (of_decide_eq_true hq)

end

end Producer

namespace Session

/-- The producers are the digitizers `members`, with their configurations. -/
def Manned (members : List Member) (s : Session) : Prop :=
  s.producers.map (fun p => (p.id, p.device)) =
    members.map fun m => (m.id, Device.synthetic m.config)

/-- Identifiers of the members at the given places. -/
def namesOf (members : List Member) (places : List Nat) : List String :=
  places.filterMap fun i => (members[i]?).map (·.id)

/-- Each digitizer has handed to queue `n` what its acquisition gave, and nothing else has reached
the queue. What has reached it comes from digitizers among `names`. -/
structure Supply (members : List Member) (handed : List Delivery)
    (reads : List Synthetic.Acquisition) (n : Nat) (names : List String) (s : Session) : Prop where
  flowing : ∀ (i : Nat) (p : Producer) (m : Member), s.producers[i]? = some p →
    members[i]? = some m →
    p.Flowing m.id m.config n (strand m.id (into n handed)) (readsOf m.id reads)
  stem : ∀ x ∈ into n handed, ∃ m ∈ members, m.id ∈ names ∧ x.source = some m.id
  reads_stem : ∀ a ∈ reads, ∃ m ∈ members, m.id ∈ names ∧ a.id = m.id

section

variable {members : List Member} {s s' : Session} {a : Act} {r n : Nat} {run : Run}
  {origin : Origin} {handed more : List Delivery} {reads : List Synthetic.Acquisition}
  {taken : List Synthetic.Acquisition} {names names' : List String} {m : Member}

/-! ## Members -/

/-- Each place has the digitizer that the member there says. -/
theorem Manned.at_place (h : s.Manned members) (i : Nat) :
    (s.producers[i]?).map (fun p => (p.id, p.device)) =
      (members[i]?).map fun m => (m.id, Device.synthetic m.config) := by
  rw [← List.getElem?_map, ← List.getElem?_map]
  exact congrArg (·[i]?) h

theorem Manned.member (h : s.Manned members) {i : Nat} {p : Producer}
    (hp : s.producers[i]? = some p) :
    ∃ m, members[i]? = some m ∧ p.id = m.id ∧ p.device = .synthetic m.config := by
  have hplace := h.at_place i
  rw [hp, Option.map_some] at hplace
  obtain ⟨m, hm, he⟩ := Option.map_eq_some_iff.mp hplace.symm
  exact ⟨m, hm, (Prod.mk.inj he).1.symm, (Prod.mk.inj he).2.symm⟩

theorem Manned.producer (h : s.Manned members) {i : Nat} (hm : members[i]? = some m) :
    ∃ p, s.producers[i]? = some p ∧ p.id = m.id ∧ p.device = .synthetic m.config := by
  have hplace := h.at_place i
  rw [hm, Option.map_some] at hplace
  obtain ⟨p, hp, he⟩ := Option.map_eq_some_iff.mp hplace
  exact ⟨p, hp, (Prod.mk.inj he).1, (Prod.mk.inj he).2⟩

theorem Manned.names_eq (h : s.Manned members) (places : List Nat) :
    (s.producersAt places).map (·.id) = namesOf members places := by
  unfold producersAt namesOf
  rw [List.map_filterMap]
  refine List.filterMap_congr fun i _ => ?_
  have hplace := congrArg (Option.map Prod.fst) (h.at_place i)
  rw [Option.map_map, Option.map_map] at hplace
  exact hplace

/-- Members of one identifier stand at one place. -/
theorem place_unique (hids : (members.map (·.id)).Nodup) {i j : Nat} {m m' : Member}
    (hm : members[i]? = some m) (hm' : members[j]? = some m') (he : m.id = m'.id) : i = j := by
  have hlt : i < (members.map (·.id)).length := by
    rw [List.length_map]
    exact (List.getElem?_eq_some_iff.mp hm).1
  refine (List.getElem?_inj hlt hids).mp ?_
  rw [List.getElem?_map, List.getElem?_map, hm, hm', Option.map_some, Option.map_some, he]

theorem mem_namesOf (hids : (members.map (·.id)).Nodup) {i : Nat} {m : Member}
    (hm : members[i]? = some m) {places : List Nat} :
    m.id ∈ namesOf members places ↔ i ∈ places := by
  constructor
  · intro h
    obtain ⟨j, hj, hid⟩ := List.mem_filterMap.mp h
    obtain ⟨m', hm', he⟩ := Option.map_eq_some_iff.mp hid
    rw [place_unique hids hm hm' he.symm]
    exact hj
  · intro h
    exact List.mem_filterMap.mpr ⟨i, h, by rw [hm]; rfl⟩

/-! ## Steps -/

theorem Supply.of_producers_eq (h : Supply members handed reads n names s)
    (hp : s'.producers = s.producers) : Supply members handed reads n names s' :=
  ⟨fun i p m hget => h.flowing i p m (hp ▸ hget), h.stem, h.reads_stem⟩

theorem Supply.rests (h : Supply members handed reads n names s) (hr : s.Rests a s') :
    Supply members (handed ++ s.handed a) (reads ++ s.readsInto n a) n names s' := by
  rw [hr.handed_eq, hr.reads_eq, List.append_nil, List.append_nil]
  exact h.of_producers_eq hr.producers_eq

theorem into_append_eq (h : Flow m.id m.config (strand m.id (into n handed) ++ into n more)
      (readsOf m.id reads ++ taken)) :
    strand m.id (into n (handed ++ more)) = strand m.id (into n handed) ++ into n more ∧
      readsOf m.id (reads ++ taken) = readsOf m.id reads ++ taken := by
  have hmore : strand m.id (into n more) = into n more := List.filter_eq_self.mpr fun x hx =>
    decide_eq_true (h.source_eq x (List.mem_append_right _ hx))
  have htaken : readsOf m.id taken = taken := List.filter_eq_self.mpr fun x hx =>
    decide_eq_true (h.id_eq x (List.mem_append_right _ hx))
  rw [into_append]
  exact ⟨(List.filter_append _ _).trans (congrArg _ hmore),
    (List.filter_append _ _).trans (congrArg _ htaken)⟩

theorem into_append_ne {m' : Member} (hne : m'.id ≠ m.id)
    (h : Flow m.id m.config (strand m.id (into n handed) ++ into n more)
      (readsOf m.id reads ++ taken)) :
    strand m'.id (into n (handed ++ more)) = strand m'.id (into n handed) ∧
      readsOf m'.id (reads ++ taken) = readsOf m'.id reads := by
  have hmore : strand m'.id (into n more) = [] := List.filter_eq_nil_iff.mpr fun x hx he =>
    hne (Option.some.inj ((of_decide_eq_true he).symm.trans
      (h.source_eq x (List.mem_append_right _ hx))))
  have htaken : readsOf m'.id taken = [] := List.filter_eq_nil_iff.mpr fun x hx he =>
    hne ((of_decide_eq_true he).symm.trans (h.id_eq x (List.mem_append_right _ hx)))
  rw [into_append]
  exact ⟨(List.filter_append _ _).trans (by rw [← strand, ← strand, hmore, List.append_nil]),
    (List.filter_append _ _).trans (by rw [← readsOf, ← readsOf, htaken, List.append_nil])⟩

/-- One digitizer hands something over, the others do not. -/
theorem Supply.extend (h : Supply members handed reads n names s)
    (hids : (members.map (·.id)).Nodup) {i : Nat} {p p' : Producer}
    (hp : s.producers[i]? = some p) (hm : members[i]? = some m)
    (hflow : p'.Flowing m.id m.config n (strand m.id (into n handed) ++ into n more)
      (readsOf m.id reads ++ taken))
    (hproducers : s'.producers = s.producers.set i p')
    (hnames : into n more ≠ [] ∨ taken ≠ [] → m.id ∈ names) :
    Supply members (handed ++ more) (reads ++ taken) n names s' := by
  have hmem := List.mem_of_getElem? hm
  constructor
  · intro j q m' hq hm'
    rw [hproducers, List.getElem?_set] at hq
    split at hq
    · rename_i hij
      subst hij
      rw [if_pos (List.getElem?_eq_some_iff.mp hp).1] at hq
      obtain rfl := Option.some.inj hq
      obtain rfl := Option.some.inj (hm.symm.trans hm')
      obtain ⟨hstrand, hreads⟩ := into_append_eq hflow.flow
      rw [hstrand, hreads]
      exact hflow
    · rename_i hij
      have hne : m'.id ≠ m.id := fun he => hij (place_unique hids hm hm' he.symm)
      obtain ⟨hstrand, hreads⟩ := into_append_ne hne hflow.flow
      rw [hstrand, hreads]
      exact h.flowing j q m' hq hm'
  · intro x hx
    rw [into_append] at hx
    rcases List.mem_append.mp hx with hx | hx
    · exact h.stem x hx
    · exact ⟨m, hmem, hnames (.inl (List.ne_nil_of_mem hx)),
        hflow.flow.source_eq x (List.mem_append_right _ hx)⟩
  · intro x hx
    rcases List.mem_append.mp hx with hx | hx
    · exact h.reads_stem x hx
    · exact ⟨m, hmem, hnames (.inr (List.ne_nil_of_mem hx)),
        hflow.flow.id_eq x (List.mem_append_right _ hx)⟩

/-- An operation that is no start into the queue. -/
theorem Supply.performs (h : Supply members handed reads n names s) (hs : s.Sound)
    (hmanned : s.Manned members) (hids : (members.map (·.id)).Nodup)
    (hintervals : ∀ m ∈ members, m.config.interval ≠ 0) {i : Nat} {p : Producer}
    {op : Producer.Operation} (ho : s.Performs a i p op s')
    (hstart : ∀ l, op = .start l → l.queue ≠ n) (hwrite : ∀ settings, op ≠ .write settings)
    (hnames : ∀ k m, s.Feeds n i k → members[i]? = some m → m.id ∈ names) :
    Supply members (handed ++ s.handed a) (reads ++ s.readsInto n a) n names s' := by
  obtain ⟨m, hm, -, -⟩ := hmanned.member ho.before
  obtain ⟨p', hp', hproducers⟩ := ho.after
  have hreal := hs.real i p ho.before
  have hflow := (h.flowing i p m ho.before hm).operate hreal
    (hintervals m (List.mem_of_getElem? hm)) hstart hwrite hp'
  have hfed : (∃ t ∈ p.slot.tasks, t.work.queue = n) → m.id ∈ names := by
    rintro ⟨t, ht, hq⟩
    exact hnames t.number m ⟨p, ho.before, t, ht, rfl, hq⟩ hm
  rw [ho.reads_eq]
  refine h.extend hids ho.before hm hflow hproducers ?_
  rintro (hinto | htaken)
  · obtain ⟨x, hx⟩ := List.exists_mem_of_ne_nil _ hinto
    obtain ⟨d, hd, rfl⟩ := List.mem_map.mp hx
    obtain ⟨hd, hq⟩ := List.mem_filter.mp hd
    obtain ⟨t, ht, hqueue⟩ := hreal.handed_operate hp' d hd
    exact hfed ⟨t, ht, hqueue.trans (of_decide_eq_true hq)⟩
  · obtain ⟨x, hx⟩ := List.exists_mem_of_ne_nil _ htaken
    exact hfed (Producer.feeds_of_readsBy hx)

theorem Supply.mono (h : Supply members handed reads n names s) (hsub : names ⊆ names') :
    Supply members handed reads n names' s := by
  refine ⟨h.flowing, fun x hx => ?_, fun a ha => ?_⟩
  · obtain ⟨m, hm, hname, hsource⟩ := h.stem x hx
    exact ⟨m, hm, hsub hname, hsource⟩
  · obtain ⟨m, hm, hname, hid⟩ := h.reads_stem a ha
    exact ⟨m, hm, hsub hname, hid⟩

/-- A digitizer that has handed nothing over begins to. -/
theorem Supply.start (h : Supply members handed reads n names s)
    (hids : (members.map (·.id)).Nodup) {i : Nat} {p : Producer} {l : Launch}
    (ho : s.Performs a i p (.start l) s') (hl : l.queue = n) (hm : members[i]? = some m)
    (hfeeds : ∀ k, ¬s.Feeds n i k) (hnot : m.id ∉ names) :
    Supply members (handed ++ s.handed a) (reads ++ s.readsInto n a) n names s' := by
  obtain ⟨p', hp', hproducers⟩ := ho.after
  have hresult : (p.start l).2 = (s.handed a, p') := Option.some.inj hp'
  have hstrand : strand m.id (into n handed) = [] := by
    refine List.filter_eq_nil_iff.mpr fun x hx hsource => ?_
    obtain ⟨m', -, hname, hsource'⟩ := h.stem x hx
    rw [Option.some.inj ((of_decide_eq_true hsource).symm.trans hsource')] at hnot
    exact hnot hname
  have hreads : readsOf m.id reads = [] := by
    refine List.filter_eq_nil_iff.mpr fun x hx hid => ?_
    obtain ⟨m', -, hname, hid'⟩ := h.reads_stem x hx
    rw [(of_decide_eq_true hid).symm.trans hid'] at hnot
    exact hnot hname
  have hflowing := h.flowing i p m ho.before hm
  rw [hstrand, hreads] at hflowing
  have hfeeding := Producer.feeding_eq_nil (n := n) fun t ht hq =>
    hfeeds t.number ⟨p, ho.before, t, ht, rfl, hq⟩
  obtain ⟨hnil, hflow⟩ := hflowing.start hfeeding hl
  rw [hresult] at hnil hflow
  obtain hnil : s.handed a = [] := hnil
  rw [ho.reads_eq, hnil]
  refine h.extend hids ho.before hm ?_ hproducers ?_
  · rw [hstrand, hreads]
    exact hflow
  · rintro (hne | hne)
    · exact absurd rfl hne
    · exact absurd rfl hne

/-- Nothing has reached a queue that does not exist yet. -/
theorem Manned.supply (h : s.Manned members) (hs : s.Sound) (hn : s.queues.length ≤ n)
    (hinto : into n handed = []) : Supply members handed [] n [] s := by
  refine ⟨fun i p m hp hm => ?_, fun x hx => ?_, nofun⟩
  · obtain ⟨m', hm', hid, hdevice⟩ := h.member hp
    obtain rfl := Option.some.inj (hm.symm.trans hm')
    refine ⟨hid, hdevice, .inr ⟨Producer.feeding_eq_nil fun t ht hq => ?_, ?_⟩⟩
    · have := hs.feeds_lt n i t.number ⟨p, hp, t, ht, rfl, hq⟩
      omega
    · rw [hinto]
      exact Synthetic.over_nil _ _
  · rw [hinto] at hx
    nomatch hx

/-- Only a change of settings gives a digitizer another configuration. -/
theorem Manned.performs (h : s.Manned members) (hs : s.Sound)
    (hintervals : ∀ m ∈ members, m.config.interval ≠ 0) {i : Nat} {p : Producer}
    {op : Producer.Operation} (ho : s.Performs a i p op s')
    (hwrite : ∀ settings, op ≠ .write settings) : s'.Manned members := by
  obtain ⟨m, hm, hid, hdevice⟩ := h.member ho.before
  obtain ⟨p', hp', hproducers⟩ := ho.after
  -- Seen from a queue that no start can be into, every operation keeps the configuration.
  obtain ⟨l, hl⟩ : ∃ l : Nat, (∀ launch, op = .start launch → launch.queue ≠ l) ∧
      s.queues.length ≤ l := by
    cases op with
    | start launch =>
      refine ⟨max s.queues.length (launch.queue + 1), fun _ he => ?_, Nat.le_max_left _ _⟩
      obtain rfl := Producer.Operation.start.inj he
      omega
    | _ => exact ⟨s.queues.length, nofun, Nat.le_refl _⟩
  have hempty : Supply members [] [] l [] s := h.supply hs hl.2 rfl
  have hflowing := hempty.flowing i p m ho.before hm
  have hflow := hflowing.operate (hs.real i p ho.before)
    (hintervals m (List.mem_of_getElem? hm)) hl.1 hwrite hp'
  unfold Manned
  have hget : (members.map fun m => (m.id, Device.synthetic m.config))[i]? =
      some (m.id, .synthetic m.config) := by
    rw [List.getElem?_map, hm, Option.map_some]
  obtain ⟨hlt, hself⟩ := List.getElem?_eq_some_iff.mp hget
  rw [hproducers, List.map_set, hflow.id_eq, hflow.device_eq, h, ← hself]
  exact List.set_getElem_self hlt

end

end Session

end ListMode
