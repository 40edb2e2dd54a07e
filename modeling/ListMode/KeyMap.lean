/-!
# Maps with their entries in key order

A finite map is the list of its entries with strictly increasing keys. Two maps with the same
look-ups are therefore equal (`KeyMap.ext_get?`), and whoever lists a map lists it in key order.
Statistics per channel, named counters, lanes and spills in flight are all kept this way.
-/

namespace ListMode

/-- A finite map whose entries are listed by strictly increasing key. -/
structure KeyMap (κ : Type) [Ord κ] (β : Type) where
  entries : List (κ × β)
  sorted : entries.Pairwise fun a b => compare a.1 b.1 = .lt

namespace KeyMap

variable {κ β γ : Type} [Ord κ]

instance [DecidableEq κ] [DecidableEq β] : DecidableEq (KeyMap κ β) := fun m n =>
  decidable_of_iff (m.entries = n.entries) (by cases m; cases n; simp)

instance [Repr κ] [Repr β] : Repr (KeyMap κ β) := ⟨fun m => reprPrec m.entries⟩

def empty : KeyMap κ β := ⟨[], .nil⟩

instance : EmptyCollection (KeyMap κ β) := ⟨empty⟩

instance : Inhabited (KeyMap κ β) := ⟨empty⟩

def keys (m : KeyMap κ β) : List κ := m.entries.map (·.1)

def values (m : KeyMap κ β) : List β := m.entries.map (·.2)

def isEmpty (m : KeyMap κ β) : Bool := m.entries.isEmpty

def size (m : KeyMap κ β) : Nat := m.entries.length

/-- The value of the first entry with key `k`. -/
def lookup (k : κ) : List (κ × β) → Option β
  | [] => none
  | (k', v) :: rest => if compare k k' = .eq then some v else lookup k rest

def get? (m : KeyMap κ β) (k : κ) : Option β := lookup k m.entries

def contains (m : KeyMap κ β) (k : κ) : Bool := (m.get? k).isSome

/-- Entries with `f` applied to what is stored under `k`, `none` if nothing is. -/
def alterEntries (k : κ) (f : Option β → β) : List (κ × β) → List (κ × β)
  | [] => [(k, f none)]
  | (k', v) :: rest =>
    match compare k k' with
    | .lt => (k, f none) :: (k', v) :: rest
    | .eq => (k', f (some v)) :: rest
    | .gt => (k', v) :: alterEntries k f rest

theorem key_mem_alterEntries {k : κ} {f : Option β → β} {l : List (κ × β)} {x : κ × β}
    (h : x ∈ alterEntries k f l) : x.1 = k ∨ ∃ y ∈ l, x.1 = y.1 := by
  induction l with
  | nil =>
    simp only [alterEntries, List.mem_singleton] at h
    exact .inl (by rw [h])
  | cons e rest ih =>
    obtain ⟨k', v⟩ := e
    unfold alterEntries at h
    split at h <;> rcases List.mem_cons.mp h with h | h
    · exact .inl (by rw [h])
    · exact .inr ⟨x, h, rfl⟩
    · exact .inr ⟨(k', v), by simp, by rw [h]⟩
    · exact .inr ⟨x, by simp [h], rfl⟩
    · exact .inr ⟨(k', v), by simp, by rw [h]⟩
    · rcases ih h with h | ⟨y, hy, h⟩
      · exact .inl h
      · exact .inr ⟨y, by simp [hy], h⟩

theorem sorted_alterEntries [Std.TransOrd κ] (k : κ) (f : Option β → β) {l : List (κ × β)}
    (h : l.Pairwise fun a b => compare a.1 b.1 = .lt) :
    (alterEntries k f l).Pairwise fun a b => compare a.1 b.1 = .lt := by
  induction l with
  | nil => simp [alterEntries]
  | cons e rest ih =>
    obtain ⟨k', v⟩ := e
    obtain ⟨hlt, hrest⟩ := List.pairwise_cons.mp h
    unfold alterEntries
    split
    · rename_i hk
      refine List.pairwise_cons.mpr ⟨fun y hy => ?_, h⟩
      rcases List.mem_cons.mp hy with rfl | hy
      · exact hk
      · exact Std.TransCmp.lt_trans hk (hlt y hy)
    · exact List.pairwise_cons.mpr ⟨hlt, hrest⟩
    · rename_i hk
      refine List.pairwise_cons.mpr ⟨fun y hy => ?_, ih hrest⟩
      rcases key_mem_alterEntries hy with hy | ⟨z, hz, hy⟩
      · rw [hy]
        exact Std.OrientedCmp.gt_iff_lt.mp hk
      · rw [hy]
        exact hlt z hz

/-- Apply `f` to what is stored under `k` (`none` if nothing is) and store the result there. -/
def alter [Std.TransOrd κ] (m : KeyMap κ β) (k : κ) (f : Option β → β) : KeyMap κ β :=
  ⟨alterEntries k f m.entries, sorted_alterEntries k f m.sorted⟩

/-- Store `v` under `k` in the place of what was there. -/
def insert [Std.TransOrd κ] (m : KeyMap κ β) (k : κ) (v : β) : KeyMap κ β :=
  m.alter k fun _ => v

/-- Store `v` under `k` unless something is stored there already. -/
def insertIfNew [Std.TransOrd κ] (m : KeyMap κ β) (k : κ) (v : β) : KeyMap κ β :=
  m.alter k fun old => old.getD v

/-- The map of a list of entries; of entries with one key the last is kept. -/
def ofList [Std.TransOrd κ] (l : List (κ × β)) : KeyMap κ β :=
  l.foldl (fun m e => m.insert e.1 e.2) ∅

def filter (m : KeyMap κ β) (p : κ → β → Bool) : KeyMap κ β :=
  ⟨m.entries.filter fun e => p e.1 e.2, m.sorted.filter _⟩

def erase (m : KeyMap κ β) (k : κ) : KeyMap κ β :=
  m.filter fun k' _ => compare k' k != .eq

def map (f : β → γ) (m : KeyMap κ β) : KeyMap κ γ :=
  ⟨m.entries.map fun e => (e.1, f e.2), by
    rw [List.pairwise_map]
    exact m.sorted⟩

/-! ## Look-up -/

@[simp] theorem get?_empty (k : κ) : (∅ : KeyMap κ β).get? k = none := rfl

theorem lookup_eq_none_of_lt {k : κ} {l : List (κ × β)}
    (h : ∀ e ∈ l, compare k e.1 = .lt) : lookup k l = none := by
  induction l with
  | nil => rfl
  | cons e rest ih =>
    obtain ⟨k', v⟩ := e
    have hk := h (k', v) (by simp)
    simp only at hk
    simp only [lookup, hk, reduceCtorEq, if_false]
    exact ih fun e he => h e (by simp [he])

theorem lookup_alterEntries_self [Std.TransOrd κ] (k : κ) (f : Option β → β) {l : List (κ × β)}
    (h : l.Pairwise fun a b => compare a.1 b.1 = .lt) :
    lookup k (alterEntries k f l) = some (f (lookup k l)) := by
  induction l with
  | nil => simp [alterEntries, lookup]
  | cons e rest ih =>
    obtain ⟨k', v⟩ := e
    obtain ⟨hlt, hrest⟩ := List.pairwise_cons.mp h
    unfold alterEntries
    split
    · rename_i hk
      have hnone : lookup k rest = none :=
        lookup_eq_none_of_lt fun e he => Std.TransCmp.lt_trans hk (hlt e he)
      simp [lookup, hk, hnone]
    · rename_i hk
      simp [lookup, hk]
    · rename_i hk
      simp [lookup, hk, ih hrest]

theorem lookup_alterEntries_ne [Std.LawfulEqOrd κ] {k k' : κ} (hne : k ≠ k') (f : Option β → β) (l : List (κ × β)) :
    lookup k' (alterEntries k f l) = lookup k' l := by
  have hk : compare k' k ≠ .eq := fun h => hne (Std.LawfulEqOrd.eq_of_compare h).symm
  induction l with
  | nil => simp [alterEntries, lookup, hk]
  | cons e rest ih =>
    obtain ⟨k'', v⟩ := e
    unfold alterEntries
    split
    · simp [lookup, hk]
    · rename_i h
      have : k = k'' := Std.LawfulEqOrd.eq_of_compare h
      subst this
      simp [lookup, hk]
    · simp [lookup, ih]

theorem get?_alter [Std.TransOrd κ] [Std.LawfulEqOrd κ] [DecidableEq κ] (m : KeyMap κ β) (k k' : κ)
    (f : Option β → β) :
    (m.alter k f).get? k' = if k = k' then some (f (m.get? k)) else m.get? k' := by
  split
  · rename_i h
    subst h
    exact lookup_alterEntries_self k f m.sorted
  · rename_i h
    exact lookup_alterEntries_ne h f m.entries

theorem get?_insert [Std.TransOrd κ] [Std.LawfulEqOrd κ] [DecidableEq κ] (m : KeyMap κ β)
    (k k' : κ) (v : β) :
    (m.insert k v).get? k' = if k = k' then some v else m.get? k' :=
  get?_alter m k k' _

theorem lookup_eq_some_iff [Std.LawfulEqOrd κ] {k : κ} {v : β} {l : List (κ × β)}
    (h : l.Pairwise fun a b => compare a.1 b.1 = .lt) :
    lookup k l = some v ↔ (k, v) ∈ l := by
  induction l with
  | nil => simp [lookup]
  | cons e rest ih =>
    obtain ⟨k', v'⟩ := e
    obtain ⟨hlt, hrest⟩ := List.pairwise_cons.mp h
    by_cases hk : compare k k' = .eq
    · have : k = k' := Std.LawfulEqOrd.eq_of_compare hk
      subst this
      have hnot : (k, v) ∉ rest := fun hm => by
        have := hlt (k, v) hm
        simp at this
      simp [lookup, hnot, eq_comm]
    · have hne : k ≠ k' := fun h => hk (h ▸ Std.ReflOrd.compare_self)
      simp [lookup, hk, ih hrest, hne]

theorem get?_eq_some_iff [Std.LawfulEqOrd κ] (m : KeyMap κ β) {k : κ} {v : β} :
    m.get? k = some v ↔ (k, v) ∈ m.entries :=
  lookup_eq_some_iff m.sorted

/-- Maps with the same look-ups are equal. -/
theorem ext_get? [Std.TransOrd κ] [Std.LawfulEqOrd κ] {m n : KeyMap κ β} (h : ∀ k, m.get? k = n.get? k) : m = n := by
  have hmem : ∀ e, e ∈ m.entries ↔ e ∈ n.entries := fun (k, v) => by
    rw [← get?_eq_some_iff, ← get?_eq_some_iff, h k]
  obtain ⟨l, hl⟩ := m
  obtain ⟨l', hl'⟩ := n
  simp only at hmem
  suffices l = l' by subst this; rfl
  induction l generalizing l' with
  | nil =>
    cases l' with
    | nil => rfl
    | cons e _ => exact absurd ((hmem e).mpr (by simp)) (by simp)
  | cons e rest ih =>
    cases l' with
    | nil => exact absurd ((hmem e).mp (by simp)) (by simp)
    | cons e' rest' =>
      obtain ⟨hlt, hrest⟩ := List.pairwise_cons.mp hl
      obtain ⟨hlt', hrest'⟩ := List.pairwise_cons.mp hl'
      have irrefl : ∀ x : κ, compare x x ≠ .lt := fun x => by
        rw [Std.ReflOrd.compare_self]
        simp
      have he : e = e' := by
        rcases List.mem_cons.mp ((hmem e).mp (by simp)) with he | he
        · exact he
        · rcases List.mem_cons.mp ((hmem e').mpr (by simp)) with he' | he'
          · exact he'.symm
          · exact absurd (Std.TransCmp.lt_trans (hlt' e he) (hlt e' he')) (irrefl _)
      subst he
      have hrr : ∀ x, x ∈ rest ↔ x ∈ rest' := fun x => by
        constructor
        · intro hx
          rcases List.mem_cons.mp ((hmem x).mp (by simp [hx])) with hx' | hx'
          · subst hx'
            exact absurd (hlt x hx) (irrefl _)
          · exact hx'
        · intro hx
          rcases List.mem_cons.mp ((hmem x).mpr (by simp [hx])) with hx' | hx'
          · subst hx'
            exact absurd (hlt' x hx) (irrefl _)
          · exact hx'
      have heq : ∀ k, (⟨rest, hrest⟩ : KeyMap κ β).get? k = (⟨rest', hrest'⟩ : KeyMap κ β).get? k := by
        intro k
        apply Option.ext
        intro v
        rw [get?_eq_some_iff, get?_eq_some_iff]
        exact hrr (k, v)
      rw [ih hrest rest' hrest' heq hrr]

end KeyMap

end ListMode
