import ListMode.Proofs.KeyMap
import ListMode.Spill

/-!
# Statistics and hits of a spill

What statistics a spill carries after several were attached, and the hits that it holds once its
buffer has been read.
-/

namespace ListMode.Spill

/-! ## Attached statistics -/

/-- Attaching statistics changes nothing but the statistics. -/
theorem foldl_withStats (l : List (Snapshot Float)) (s : Spill) :
    l.foldl withStats s = { s with stats := (l.foldl withStats s).stats } := by
  induction l generalizing s with
  | nil => rfl
  | cons x rest ih => exact ih (s.withStats x)

theorem run_withStats (l : List (Snapshot Float)) (s : Spill) :
    (l.foldl withStats s).run = s.run := by
  rw [foldl_withStats]

/-- The statistics of a channel were attached, or were there before. -/
theorem get?_foldl_withStats {l : List (Snapshot Float)} {s : Spill} {c : Channel}
    {x : Snapshot Float} (h : (l.foldl withStats s).stats.get? c = some x) :
    x ∈ l ∧ x.channel = c ∨ s.stats.get? c = some x := by
  induction l generalizing s with
  | nil => exact .inr h
  | cons y rest ih =>
    rcases ih h with ⟨hx, hc⟩ | hy
    · exact .inl ⟨List.mem_cons_of_mem _ hx, hc⟩
    · rw [withStats, KeyMap.get?_insert] at hy
      split at hy
      · rename_i hc
        obtain rfl := Option.some.inj hy
        exact .inl ⟨List.mem_cons_self, hc⟩
      · exact .inr hy

/-- Statistics that were attached are there, unless others of their channel were attached later. -/
theorem isSome_foldl_withStats {l : List (Snapshot Float)} {s : Spill} {c : Channel}
    (h : (∃ x ∈ l, x.channel = c) ∨ (s.stats.get? c).isSome = true) :
    ((l.foldl withStats s).stats.get? c).isSome = true := by
  induction l generalizing s with
  | nil => exact h.resolve_left fun ⟨_, hx, _⟩ => nomatch hx
  | cons y rest ih =>
    apply ih
    rw [withStats, KeyMap.get?_insert]
    by_cases hc : y.channel = c
    · right
      rw [if_pos hc]
      rfl
    · rw [if_neg hc]
      refine h.imp_left ?_
      rintro ⟨x, hx, hxc⟩
      refine ⟨x, List.mem_of_ne_of_mem ?_ hx, hxc⟩
      rintro rfl
      exact hc hxc

/-! ## Hits in a buffer -/

/-- The hits of a spill whose buffer, if it has one, is a list of records. -/
def content (s : Spill) : List Hit :=
  match s.payload with
  | .events hits => hits
  | .raw buffer => (Record.decode? buffer).getD []

/-- The spill has hits, or where buffers are allowed one that can be read. -/
def Readable (s : Spill) (raw : Bool) : Prop :=
  ∀ buffer, s.payload = .raw buffer → raw = true ∧ (Record.decode? buffer).isSome = true

end ListMode.Spill
