import ListMode.Merger
import ListMode.Proofs.Hit.Order
import ListMode.Proofs.KeyMap

/-!
# Lanes and their fronts

The lanes seen as one list of buffered hits (`laned`), as one list for each channel (`lane`) and as
the keys of their first hits (`frontsOf`), and what replacing one lane does to each of these views.
`Fronted` ties the list of fronts to the lanes: it holds one key for each lane that is not empty,
and none for any other, smallest first.
-/

namespace ListMode.Merger

/-- Buffered hits of all lanes, each with the number of its spill. -/
def laned (lanes : KeyMap Channel Lane) : List (Hit × Nat) := lanes.values.flatMap (·.hits)

/-- Key under which the hits of a lane stand among the fronts. -/
def frontKey? (c : Channel) (hits : List (Hit × Nat)) : Option Hit.Key :=
  hits.head?.map fun h => ⟨h.1.timestamp, c⟩

/-- Keys of the first hits of the lanes. -/
def frontsOf (lanes : KeyMap Channel Lane) : List Hit.Key :=
  lanes.entries.filterMap fun e => frontKey? e.1 e.2.hits

/-- Hits in the lane of channel `c`, if there is one. -/
def hitsAt (lanes : KeyMap Channel Lane) (c : Channel) : List (Hit × Nat) :=
  ((lanes.get? c).map (·.hits)).getD []

/-- Buffered hits of channel `c`. -/
def lane (m : Merger) (c : Channel) : List (Hit × Nat) := hitsAt m.lanes c

theorem hitsAt_eq {lanes : KeyMap Channel Lane} {c : Channel} {l : Lane}
    (h : lanes.get? c = some l) : hitsAt lanes c = l.hits := by
  simp [hitsAt, h]

theorem hitsAt_alter (lanes : KeyMap Channel Lane) (c c' : Channel) (f : Option Lane → Lane) :
    hitsAt (lanes.alter c f) c' =
      if c = c' then (f (lanes.get? c)).hits else hitsAt lanes c' := by
  rw [hitsAt, KeyMap.get?_alter]
  split
  · rfl
  · rfl

theorem hitsAt_insert (lanes : KeyMap Channel Lane) (c c' : Channel) (l : Lane) :
    hitsAt (lanes.insert c l) c' = if c = c' then l.hits else hitsAt lanes c' :=
  hitsAt_alter lanes c c' fun _ => l

theorem mem_laned {lanes : KeyMap Channel Lane} {x : Hit × Nat} :
    x ∈ laned lanes ↔ ∃ c, x ∈ hitsAt lanes c := by
  simp only [laned, List.mem_flatMap, KeyMap.mem_values_iff]
  constructor
  · rintro ⟨l, ⟨c, hc⟩, hx⟩
    exact ⟨c, by rw [hitsAt_eq hc]; exact hx⟩
  · rintro ⟨c, hx⟩
    cases hc : lanes.get? c with
    | none => simp [hitsAt, hc] at hx
    | some l =>
      rw [hitsAt_eq hc] at hx
      exact ⟨l, ⟨c, hc⟩, hx⟩

theorem mem_frontsOf {lanes : KeyMap Channel Lane} {k : Hit.Key} :
    k ∈ frontsOf lanes ↔ ∃ c, frontKey? c (hitsAt lanes c) = some k := by
  simp only [frontsOf, List.mem_filterMap, Prod.exists, ← KeyMap.get?_eq_some_iff]
  constructor
  · rintro ⟨c, l, hc, hk⟩
    exact ⟨c, by rw [hitsAt_eq hc]; exact hk⟩
  · rintro ⟨c, hk⟩
    cases hc : lanes.get? c with
    | none => simp [hitsAt, hc, frontKey?] at hk
    | some l =>
      rw [hitsAt_eq hc] at hk
      exact ⟨c, l, hc, hk⟩

/-! ## Replacing a lane -/

/-- Replacing a lane exchanges its hits. -/
theorem laned_alter (lanes : KeyMap Channel Lane) (c : Channel) (f : Option Lane → Lane) :
    ∃ others, (laned lanes).Perm (hitsAt lanes c ++ others) ∧
      (laned (lanes.alter c f)).Perm ((f (lanes.get? c)).hits ++ others) := by
  obtain ⟨pre, post, hl, hal⟩ := lanes.alter_split c f
  refine ⟨(pre ++ post).flatMap (·.2.hits), ?_, ?_⟩
  · have hold : (((lanes.get? c).map (c, ·)).toList).flatMap (·.2.hits) = hitsAt lanes c := by
      cases hc : lanes.get? c <;> simp [hitsAt, hc]
    have hall : laned lanes =
        pre.flatMap (·.2.hits) ++ hitsAt lanes c ++ post.flatMap (·.2.hits) := by
      rw [← hold, laned, KeyMap.values, List.flatMap_map, hl, List.flatMap_append,
        List.flatMap_append]
    rw [hall, List.flatMap_append, ← List.append_assoc]
    exact List.perm_append_comm.append_right _
  · have hall : laned (lanes.alter c f) =
        pre.flatMap (·.2.hits) ++ (f (lanes.get? c)).hits ++ post.flatMap (·.2.hits) := by
      rw [laned, KeyMap.values, List.flatMap_map, hal, List.flatMap_append, List.flatMap_cons,
        List.append_assoc]
    rw [hall, List.flatMap_append, ← List.append_assoc]
    exact List.perm_append_comm.append_right _

/-- Replacing a lane exchanges its front. -/
theorem frontsOf_alter (lanes : KeyMap Channel Lane) (c : Channel) (f : Option Lane → Lane) :
    ∃ others, (frontsOf lanes).Perm ((frontKey? c (hitsAt lanes c)).toList ++ others) ∧
      (frontsOf (lanes.alter c f)).Perm
        ((frontKey? c (f (lanes.get? c)).hits).toList ++ others) := by
  obtain ⟨pre, post, hl, hal⟩ := lanes.alter_split c f
  let front (e : Channel × Lane) : Option Hit.Key := frontKey? e.1 e.2.hits
  refine ⟨(pre ++ post).filterMap front, ?_, ?_⟩
  · have hold : (((lanes.get? c).map (c, ·)).toList).filterMap front =
        (frontKey? c (hitsAt lanes c)).toList := by
      cases hc : lanes.get? c with
      | none => simp [hitsAt, hc, frontKey?]
      | some l =>
        rw [hitsAt_eq hc]
        cases hk : frontKey? c l.hits <;> simp [front, hk]
    have hall : frontsOf lanes =
        pre.filterMap front ++ (frontKey? c (hitsAt lanes c)).toList ++ post.filterMap front := by
      rw [← hold, frontsOf, hl, List.filterMap_append, List.filterMap_append]
    rw [hall, List.filterMap_append, ← List.append_assoc]
    exact List.perm_append_comm.append_right _
  · have hnew : [(c, f (lanes.get? c))].filterMap front =
        (frontKey? c (f (lanes.get? c)).hits).toList := by
      cases hk : frontKey? c (f (lanes.get? c)).hits <;> simp [front, hk]
    have hall : frontsOf (lanes.alter c f) = pre.filterMap front ++
        (frontKey? c (f (lanes.get? c)).hits).toList ++ post.filterMap front := by
      rw [← hnew, frontsOf, hal, ← List.filterMap_append, ← List.filterMap_append,
        List.append_assoc]
      rfl
    rw [hall, List.filterMap_append, ← List.append_assoc]
    exact List.perm_append_comm.append_right _

theorem buffered_eq (m : Merger) : m.buffered = (laned m.lanes).length := by
  rw [buffered, laned, List.length_flatMap]
  exact List.sum_eq_foldr.symm

/-! ## The list of fronts -/

theorem insertFront_perm (k : Hit.Key) (fronts : List Hit.Key) :
    (insertFront k fronts).Perm (k :: fronts) := by
  induction fronts with
  | nil => exact .refl _
  | cons k' rest ih =>
    rw [insertFront]
    split
    · exact .refl _
    · exact (ih.cons k').trans (.swap k k' rest)

theorem insertFront_sorted {k : Hit.Key} {fronts : List Hit.Key}
    (h : fronts.Pairwise (· ≤ ·)) : (insertFront k fronts).Pairwise (· ≤ ·) := by
  induction fronts with
  | nil => simp [insertFront]
  | cons k' rest ih =>
    obtain ⟨hk', hrest⟩ := List.pairwise_cons.mp h
    rw [insertFront]
    split
    · rename_i hle
      refine List.pairwise_cons.mpr ⟨fun x hx => ?_, h⟩
      rcases List.mem_cons.mp hx with rfl | hx
      · exact hle
      · exact Hit.Key.le_trans hle (hk' x hx)
    · rename_i hnle
      refine List.pairwise_cons.mpr ⟨fun x hx => ?_, ih hrest⟩
      rcases List.mem_cons.mp ((insertFront_perm k rest).mem_iff.mp hx) with rfl | hx
      · exact Hit.Key.le_of_not_le hnle
      · exact hk' x hx

/-- The fronts are the keys of the lanes' first hits, smallest first, and the hits of a lane are of
its channel. -/
structure Fronted (m : Merger) : Prop where
  channel_eq : ∀ c, ∀ h ∈ m.lane c, h.1.channel = c
  fronts_perm : m.fronts.Perm (frontsOf m.lanes)
  fronts_sorted : m.fronts.Pairwise (· ≤ ·)

/-- With no front left, nothing is buffered. -/
theorem Fronted.lane_eq_nil {m : Merger} (h : m.Fronted) (hf : m.fronts = []) (c : Channel) :
    m.lane c = [] := by
  cases hl : m.lane c with
  | nil => rfl
  | cons x rest =>
    have hmem : (⟨x.1.timestamp, c⟩ : Hit.Key) ∈ frontsOf m.lanes :=
      mem_frontsOf.mpr ⟨c, by rw [← lane, hl]; rfl⟩
    rw [← h.fronts_perm.mem_iff, hf] at hmem
    cases hmem

/-! ## Emitting a hit -/

/-- One emission, seen through the lanes: `hit` of spill `seq` leaves the front of its lane, and
nothing else is touched but the count of its spill. -/
structure Emission (m : Merger) (hit : Hit) (seq : Nat) (m' : Merger) : Prop where
  free : m.isHeldUp = false
  least : ∀ k ∈ m.fronts, hit.key ≤ k
  lane_eq : m.lane hit.channel = (hit, seq) :: m'.lane hit.channel
  lane_ne : ∀ c, c ≠ hit.channel → m'.lane c = m.lane c
  laned_perm : (laned m.lanes).Perm ((hit, seq) :: laned m'.lanes)
  isOpen_eq : ∀ c, (m'.lanes.get? c).map (·.isOpen) = (m.lanes.get? c).map (·.isOpen)
  inFlight_eq : m'.inFlight = settle m.inFlight seq
  output_eq : m'.output = m.output ++ [hit]
  sink_eq : m'.sink = m.sink
  report_eq : m'.report = m.report
  decoders_eq : m'.decoders = m.decoders
  nextSeq_eq : m'.nextSeq = m.nextSeq
  closed_eq : m'.closed = m.closed

/-- The fronts of the other lanes, and that of the lane a hit was taken from. -/
def refront (c : Channel) (rest : List (Hit × Nat)) (fronts : List Hit.Key) : List Hit.Key :=
  match rest with
  | [] => fronts
  | (next, _) :: _ => insertFront ⟨next.timestamp, c⟩ fronts

theorem refront_perm (c : Channel) (rest : List (Hit × Nat)) (fronts : List Hit.Key) :
    (refront c rest fronts).Perm ((frontKey? c rest).toList ++ fronts) := by
  cases rest with
  | nil => exact .refl _
  | cons next rest => exact insertFront_perm _ _

theorem refront_sorted {c : Channel} {rest : List (Hit × Nat)} {fronts : List Hit.Key}
    (h : fronts.Pairwise (· ≤ ·)) : (refront c rest fronts).Pairwise (· ≤ ·) := by
  cases rest with
  | nil => exact h
  | cons next rest => exact insertFront_sorted h

/-- `m` after the first hit of lane `l` has gone out. -/
def emitting (m : Merger) (l : Lane) (hit : Hit) (seq : Nat) (rest : List (Hit × Nat))
    (fronts : List Hit.Key) : Merger :=
  { m with
    lanes := m.lanes.insert hit.channel { l with hits := rest }
    fronts := refront hit.channel rest fronts
    inFlight := settle m.inFlight seq
    output := m.output ++ [hit] }

/-- A front names a lane whose first hit has its key. -/
theorem Fronted.of_mem_fronts {m : Merger} (h : m.Fronted) {k : Hit.Key} (hk : k ∈ m.fronts) :
    ∃ l hit seq rest, k = hit.key ∧ m.lanes.get? hit.channel = some l ∧
      l.hits = (hit, seq) :: rest := by
  obtain ⟨c, hk⟩ := mem_frontsOf.mp (h.fronts_perm.mem_iff.mp hk)
  cases hc : m.lanes.get? c with
  | none => simp [hitsAt, hc, frontKey?] at hk
  | some l =>
    cases hl : l.hits with
    | nil => simp [hitsAt_eq hc, hl, frontKey?] at hk
    | cons x rest =>
      obtain ⟨hit, seq⟩ := x
      obtain rfl : ⟨hit.timestamp, c⟩ = k := by simpa [hitsAt_eq hc, hl, frontKey?] using hk
      obtain rfl : hit.channel = c := by
        refine h.channel_eq c (hit, seq) ?_
        rw [lane, hitsAt_eq hc, hl]
        simp
      exact ⟨l, hit, seq, rest, rfl, hc, hl⟩

/-- No front is smaller than the first one. -/
theorem Fronted.head_le {m : Merger} (h : m.Fronted) {k k' : Hit.Key} {fronts : List Hit.Key}
    (hf : m.fronts = k :: fronts) (hk : k' ∈ m.fronts) : k ≤ k' := by
  have hs := h.fronts_sorted
  rw [hf] at hk hs
  rcases List.mem_cons.mp hk with rfl | hk
  · exact Hit.Key.le_refl _
  · exact (List.pairwise_cons.mp hs).1 k' hk

/-- The first front names a lane that holds a hit with its key, so an emission always yields one. -/
theorem Fronted.emit?_eq {m : Merger} (h : m.Fronted) {k : Hit.Key} {fronts : List Hit.Key}
    (hf : m.fronts = k :: fronts) (hfree : m.isHeldUp = false) :
    ∃ l hit seq rest, k = hit.key ∧ m.lanes.get? hit.channel = some l ∧
      l.hits = (hit, seq) :: rest ∧ m.emit? = some (m.emitting l hit seq rest fronts) := by
  obtain ⟨l, hit, seq, rest, rfl, hc, hl⟩ := h.of_mem_fronts (k := k) (by simp [hf])
  refine ⟨l, hit, seq, rest, rfl, hc, hl, ?_⟩
  rw [emit?, if_neg (by simp [hfree]), hf]
  simp only [Hit.key, hc, hl]
  cases rest <;> rfl

section

variable {m : Merger} {l : Lane} {hit : Hit} {seq : Nat} {rest : List (Hit × Nat)}
  {fronts : List Hit.Key}

theorem lane_emitting (c : Channel) :
    (m.emitting l hit seq rest fronts).lane c = if hit.channel = c then rest else m.lane c :=
  hitsAt_insert m.lanes hit.channel c { l with hits := rest }

theorem emission_emitting (hfree : m.isHeldUp = false) (hleast : ∀ k ∈ m.fronts, hit.key ≤ k)
    (hc : m.lanes.get? hit.channel = some l) (hl : l.hits = (hit, seq) :: rest) :
    Emission m hit seq (m.emitting l hit seq rest fronts) := by
  have hlane : m.lane hit.channel = (hit, seq) :: rest := by rw [lane, hitsAt_eq hc, hl]
  refine ⟨hfree, hleast, ?_, ?_, ?_, ?_, rfl, rfl, rfl, rfl, rfl, rfl, rfl⟩
  · rw [hlane, lane_emitting, if_pos rfl]
  · intro c hne
    rw [lane_emitting, if_neg (Ne.symm hne)]
  · obtain ⟨others, hold, hnew⟩ := laned_alter m.lanes hit.channel fun _ => { l with hits := rest }
    rw [← lane, hlane] at hold
    exact hold.trans (List.Perm.cons _ hnew.symm)
  · intro c
    change ((m.lanes.insert hit.channel { l with hits := rest }).get? c).map _ = _
    rw [KeyMap.get?_insert]
    split
    · rename_i hcc
      rw [← hcc, hc]
      rfl
    · rfl

theorem Fronted.emitting (h : m.Fronted) (hf : m.fronts = hit.key :: fronts)
    (hc : m.lanes.get? hit.channel = some l) (hl : l.hits = (hit, seq) :: rest) :
    (m.emitting l hit seq rest fronts).Fronted := by
  have hlane : m.lane hit.channel = (hit, seq) :: rest := by rw [lane, hitsAt_eq hc, hl]
  refine ⟨?_, ?_, ?_⟩
  · intro c x hx
    rw [lane_emitting] at hx
    split at hx
    · rename_i hcc
      subst hcc
      exact h.channel_eq hit.channel x (by rw [hlane]; simp [hx])
    · exact h.channel_eq c x hx
  · obtain ⟨others, hold, hnew⟩ :=
      frontsOf_alter m.lanes hit.channel fun _ => { l with hits := rest }
    rw [← lane, hlane] at hold
    have hfr : fronts.Perm others := by
      have hp := h.fronts_perm.trans hold
      rw [hf] at hp
      exact hp.cons_inv
    exact (refront_perm _ _ _).trans ((hfr.append_left _).trans hnew.symm)
  · have hs := h.fronts_sorted
    rw [hf] at hs
    exact refront_sorted (List.pairwise_cons.mp hs).2

end

theorem Fronted.emission {m m' : Merger} (h : m.Fronted) (he : m.emit? = some m') :
    ∃ hit seq, Emission m hit seq m' ∧ m'.Fronted := by
  have hfree : m.isHeldUp = false := by
    cases hh : m.isHeldUp with
    | false => rfl
    | true => simp [emit?, hh] at he
  cases hf : m.fronts with
  | nil => simp [emit?, hfree, hf] at he
  | cons k fronts =>
    obtain ⟨l, hit, seq, rest, rfl, hc, hl, heq⟩ := h.emit?_eq hf hfree
    obtain rfl := Option.some.inj (heq.symm.trans he)
    have hleast : ∀ k ∈ m.fronts, hit.key ≤ k := fun _ => h.head_le hf
    exact ⟨hit, seq, emission_emitting hfree hleast hc hl, h.emitting hf hc hl⟩

/-- Nothing more is emitted only if the merge is held up or nothing is buffered. -/
theorem Fronted.of_emit?_eq_none {m : Merger} (h : m.Fronted) (he : m.emit? = none) :
    m.isHeldUp = true ∨ ∀ c, m.lane c = [] := by
  cases hh : m.isHeldUp with
  | true => exact .inl rfl
  | false =>
    refine .inr (h.lane_eq_nil ?_)
    cases hf : m.fronts with
    | nil => rfl
    | cons k fronts =>
      obtain ⟨_, _, _, _, _, _, _, hs⟩ := h.emit?_eq hf hh
      rw [he] at hs
      cases hs

/-! ## Merging -/

/-- An emission takes a buffered hit away. -/
theorem Emission.buffered_lt {m m' : Merger} {hit : Hit} {seq : Nat} (h : Emission m hit seq m') :
    m'.buffered < m.buffered := by
  rw [buffered_eq, buffered_eq, h.laned_perm.length_eq, List.length_cons]
  exact Nat.lt_succ_self _

/-- What every emission keeps, merging keeps. -/
theorem Fronted.merge_induct {P : Merger → Prop} {m : Merger} (hf : m.Fronted) (h : P m)
    (step : ∀ m hit seq m', P m → Emission m hit seq m' → m'.Fronted → P m') :
    P m.merge ∧ m.merge.Fronted ∧ m.merge.emit? = none := by
  have key : ∀ n (m : Merger), m.Fronted → P m → m.buffered < n →
      P (emitUpTo n m) ∧ (emitUpTo n m).Fronted ∧ (emitUpTo n m).emit? = none := by
    intro n
    induction n with
    | zero => intro m _ _ hlt; omega
    | succ n ih =>
      intro m hf h hlt
      rw [emitUpTo]
      cases he : m.emit? with
      | none => exact ⟨h, hf, he⟩
      | some m' =>
        obtain ⟨hit, seq, hem, hf'⟩ := hf.emission he
        have hb := hem.buffered_lt
        exact ih m' hf' (step m hit seq m' h hem hf') (by omega)
  rw [merge]
  cases hfr : m.fronts with
  | nil =>
    have hnone : m.emit? = none := by rw [emit?, hfr]; split <;> rfl
    have hsame : ∀ n, emitUpTo n m = m := by
      intro n
      cases n with
      | zero => rfl
      | succ n => rw [emitUpTo, hnone]
    rw [hsame]
    exact ⟨h, hf, hnone⟩
  | cons k fronts => exact key _ m hf h (by simp)

end ListMode.Merger
