import ListMode.Proofs.Merger.Conservation

/-!
# Spills leave the merger

`history` records which spill leaves at which point of a run and what goes to the sink with it. What
a single departure keeps is kept by a whole drain (`Coherent.drain_departures`): at the time a spill
leaves, none of its hits is buffered and no older spill in flight has its source or a channel of it,
and a boundary leaves as the oldest of all.
-/

namespace ListMode

/-- Whether `y`, when it is older, has to leave before `x`: they have a common source or a common
channel, or `x` is a boundary. -/
def InFlight.Holds (y x : InFlight) : Prop :=
  x.spill.run.isSome = true ∨
    (∃ source, y.spill.source = some source ∧ x.spill.source = some source) ∨
    ∃ c ∈ y.channels, c ∈ x.channels

namespace Hold

theorem blocks_iff {hold : Hold} {x : InFlight} : hold.blocks x = true ↔
    (∃ source, source ∈ hold.sources ∧ x.spill.source = some source) ∨
      ∃ c ∈ hold.channels, c ∈ x.channels := by
  simp only [blocks, Bool.or_eq_true, Option.any_eq_true, List.any_eq_true, List.contains_iff_mem]
  simp only [and_comm]

theorem releases_iff {hold : Hold} {x : InFlight} : hold.releases x = true ↔
    x.remaining = 0 ∧ (x.spill.run.isSome = true → hold.oldest = true) ∧
      (x.spill.run.isSome = false → hold.blocks x = false) := by
  cases hrun : x.spill.run.isSome <;> simp [releases, hrun]

theorem releases_none_iff {x : InFlight} : none.releases x = true ↔ x.remaining = 0 := by
  rw [releases_iff]
  simp [none, blocks]

/-- What leaves although `y` stays in flight is what would leave without it and is not held back by
it. -/
theorem releases_add_iff {hold : Hold} {y x : InFlight} :
    (hold.add y).releases x = true ↔ hold.releases x = true ∧ ¬y.Holds x := by
  have hblocks : (hold.add y).blocks x = true ↔ hold.blocks x = true ∨
      (∃ source, y.spill.source = some source ∧ x.spill.source = some source) ∨
      ∃ c ∈ y.channels, c ∈ x.channels := by
    simp only [blocks_iff, add, List.mem_append, Option.mem_toList, or_and_right, exists_or]
    constructor
    · rintro ((h | h) | (h | h))
      · exact .inr (.inl h)
      · exact .inl (.inl h)
      · exact .inr (.inr h)
      · exact .inl (.inr h)
    · rintro ((h | h) | (h | h))
      · exact .inl (.inr h)
      · exact .inr (.inr h)
      · exact .inl (.inl h)
      · exact .inr (.inl h)
  rw [releases_iff, releases_iff, InFlight.Holds, ← Bool.not_eq_true, ← Bool.not_eq_true, hblocks]
  cases hrun : x.spill.run.isSome with
  | false => simp [and_assoc]
  | true => simp [add]

/-- An entry leaves when each earlier one has left or does not hold it back. -/
theorem releases_of_released {hold : Hold} {l before after : List (Nat × InFlight)}
    {x : Nat × InFlight} (h : hold.released l = before ++ x :: after) :
    hold.releases x.2 = true ∧ ∃ l₁ l₂, l = l₁ ++ x :: l₂ ∧
      ∀ y ∈ l₁, y ∈ before ∨ ¬y.2.Holds x.2 := by
  induction l generalizing hold before with
  | nil =>
    rw [released] at h
    simp at h
  | cons y rest ih =>
    rw [released] at h
    split at h
    · rename_i hy
      cases before with
      | nil =>
        obtain ⟨rfl, -⟩ := List.cons.inj h
        exact ⟨hy, [], rest, rfl, by simp⟩
      | cons z before =>
        rw [List.cons_append, List.cons.injEq] at h
        obtain ⟨rfl, h⟩ := h
        obtain ⟨hx, l₁, l₂, rfl, hl⟩ := ih h
        refine ⟨hx, y :: l₁, l₂, rfl, fun z hz => ?_⟩
        rcases List.mem_cons.mp hz with rfl | hz
        · exact .inl (by simp)
        · exact (hl z hz).imp_left (List.mem_cons_of_mem _)
    · obtain ⟨hx, l₁, l₂, rfl, hl⟩ := ih h
      obtain ⟨hx, hy⟩ := releases_add_iff.mp hx
      refine ⟨hx, y :: l₁, l₂, rfl, fun z hz => ?_⟩
      rcases List.mem_cons.mp hz with rfl | hz
      · exact .inr hy
      · exact hl z hz

/-- When no hits are buffered any more, everything leaves. -/
theorem released_none {l : List (Nat × InFlight)} (h : ∀ x ∈ l, x.2.remaining = 0) :
    Hold.none.released l = l := by
  induction l with
  | nil => rfl
  | cons x rest ih =>
    have hx : Hold.none.releases x.2 = true := releases_none_iff.mpr (h x (by simp))
    rw [released, if_pos hx, ih fun y hy => h y (List.mem_cons_of_mem _ hy)]

end Hold

namespace Merger

/-- A spill leaves: its number, and what goes to the sink with it unless that has nothing in it. -/
structure Departure where
  seq : Nat
  parcel : Spill

/-- The hits handed over by the end of `log`. -/
def Departure.hits (log : List Departure) : List Hit := log.flatMap fun d => d.parcel.hits

def departure (m : Merger) (x : Nat × InFlight) : Departure := ⟨x.1, m.parcel x.2.spill⟩

/-- Departures when `entries` are released one after the other. -/
def departures (m : Merger) : List (Nat × InFlight) → List Departure
  | [] => []
  | x :: rest => m.departure x :: (m.release x).departures rest

/-- Departures of a push. -/
def pushLog (m : Merger) (s : Spill) : List Departure :=
  let m := (m.receive s).merge
  m.departures m.leaving

/-- Departures when `spills` are pushed. -/
def history (m : Merger) : List Spill → List Departure
  | [] => []
  | s :: rest => m.pushLog s ++ (m.push s).history rest

/-- Departures at the end. -/
def finishLog (m : Merger) : List Departure := m.close.merge.departures m.close.merge.leaving

theorem history_append (m : Merger) (past future : List Spill) :
    m.history (past ++ future) = m.history past ++ (m.pushAll past).history future := by
  induction past generalizing m with
  | nil => rfl
  | cons s rest ih =>
    rw [List.cons_append, history, history, ih, List.append_assoc]
    rfl

theorem history_cons (m : Merger) (s : Spill) (rest : List Spill) :
    m.history (s :: rest) = m.history [s] ++ (m.push s).history rest :=
  history_append m [s] rest

theorem departures_append (m : Merger) (l : List (Nat × InFlight)) (x : Nat × InFlight) :
    m.departures (l ++ [x]) = m.departures l ++ [(l.foldl release m).departure x] := by
  induction l generalizing m with
  | nil => rfl
  | cons y rest ih =>
    rw [List.cons_append, departures, departures, ih, List.foldl_cons, List.cons_append]

theorem get?_foldl_release (m : Merger) (l : List (Nat × InFlight)) (k : Nat) :
    (l.foldl release m).inFlight.get? k =
      if k ∈ l.map (·.1) then none else m.inFlight.get? k := by
  induction l generalizing m with
  | nil => simp
  | cons x rest ih =>
    rw [List.foldl_cons, ih, (release_fields m x).2.1, KeyMap.get?_erase, List.map_cons]
    by_cases hx : x.1 = k
    · simp [hx]
    · rw [if_neg hx]
      simp only [List.mem_cons, Ne.symm hx, false_or]

/-- No older spill in flight holds `x` back. -/
def Unheld (m : Merger) (x : Nat × InFlight) : Prop :=
  ∀ seq e, m.inFlight.get? seq = some e → seq < x.1 → ¬e.Holds x.2

/-- A spill leaves when all older ones that hold it back have left. -/
theorem unheld_of_leaving {m : Merger} {before after : List (Nat × InFlight)} {x : Nat × InFlight}
    (h : m.leaving = before ++ x :: after) : (before.foldl release m).Unheld x := by
  obtain ⟨-, l₁, l₂, hl, hheld⟩ := Hold.releases_of_released h
  intro seq e he hlt
  rw [get?_foldl_release] at he
  split at he
  · cases he
  · rename_i hseq
    have hmem : (seq, e) ∈ l₁ ++ x :: l₂ := hl ▸ (KeyMap.get?_eq_some_iff _).mp he
    have hsorted := m.inFlight.sorted
    rw [hl] at hsorted
    obtain ⟨-, hsorted, -⟩ := List.pairwise_append.mp hsorted
    have hearlier : (seq, e) ∈ l₁ := by
      rcases List.mem_append.mp hmem with hmem | hmem
      · exact hmem
      · rcases List.mem_cons.mp hmem with rfl | hmem
        · exact absurd hlt (Nat.lt_irrefl _)
        · have hgt := Nat.compare_eq_lt.mp ((List.pairwise_cons.mp hsorted).1 _ hmem)
          omega
    refine (hheld _ hearlier).resolve_left fun hb => hseq ?_
    exact List.mem_map.mpr ⟨_, hb, rfl⟩

/-- What the departure of a spill that nothing holds back keeps, draining keeps. -/
theorem Coherent.drain_departures {P : Merger → List Departure → Prop} {m : Merger}
    {log : List Departure} (h : m.Coherent) (hp : P m log)
    (step : ∀ m log x, m.Coherent → P m log → m.inFlight.get? x.1 = some x.2 →
      x.2.remaining = 0 → m.Unheld x → P (m.release x) (log ++ [m.departure x])) :
    P m.drain (log ++ m.departures m.leaving) := by
  have key : ∀ after before, m.leaving = before ++ after →
      (before.foldl Merger.release m).Coherent →
      P (before.foldl Merger.release m) (log ++ m.departures before) →
      P (m.leaving.foldl Merger.release m) (log ++ m.departures m.leaving) := by
    intro after
    induction after with
    | nil =>
      intro before hl _ hp
      rw [List.append_nil] at hl
      rwa [hl]
    | cons x after ih =>
      intro before hl hc hp
      have hx : x ∈ m.leaving := by rw [hl]; simp
      have hrem := remaining_of_mem_released hx
      have hget : (before.foldl Merger.release m).inFlight.get? x.1 = some x.2 := by
        have hsorted := m.leaving_sorted
        rw [hl] at hsorted
        have hnot : x.1 ∉ before.map (·.1) := by
          intro hmem
          obtain ⟨y, hy, hyx⟩ := List.mem_map.mp hmem
          have := (List.pairwise_append.mp hsorted).2.2 y hy x (by simp)
          omega
        rw [get?_foldl_release, if_neg hnot]
        exact get?_of_mem_leaving hx
      have hnext := step _ _ x hc hp hget hrem (unheld_of_leaving hl)
      refine ih (before ++ [x]) (by rw [hl]; simp) ?_ ?_
      · rw [List.foldl_append]
        exact hc.release hget hrem
      · rw [List.foldl_append, departures_append, ← List.append_assoc]
        exact hnext
  rw [drain_eq]
  exact key m.leaving [] rfl h (by simpa [departures] using hp)

end Merger

end ListMode
