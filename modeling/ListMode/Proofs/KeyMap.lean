import Mathlib.Data.List.Induction
import Mathlib.Data.List.Nodup
import ListMode.KeyMap

/-!
# Entries of a map

What `alter`, `insert` and `erase` do to the list of entries. Sums, searches and look-ups over all
entries of a map are then list arithmetic around the one entry that changed.
-/

namespace ListMode.KeyMap

variable {κ β : Type} [Ord κ]

/-! ## Changing one entry -/

theorem alterEntries_split [Std.TransOrd κ] [Std.LawfulEqOrd κ] (k : κ) (f : Option β → β)
    {l : List (κ × β)} (h : l.Pairwise fun a b => compare a.1 b.1 = .lt) :
    ∃ pre post, l = pre ++ ((lookup k l).map (k, ·)).toList ++ post ∧
      alterEntries k f l = pre ++ (k, f (lookup k l)) :: post := by
  induction l with
  | nil => exact ⟨[], [], rfl, rfl⟩
  | cons e rest ih =>
    obtain ⟨k', v⟩ := e
    obtain ⟨hlt, hrest⟩ := List.pairwise_cons.mp h
    cases hk : compare k k' with
    | lt =>
      have hnone : lookup k rest = none :=
        lookup_eq_none_of_lt fun e he => Std.TransCmp.lt_trans hk (hlt e he)
      refine ⟨[], (k', v) :: rest, ?_, ?_⟩
      · simp [lookup, hk, hnone]
      · simp [alterEntries, lookup, hk, hnone]
    | eq =>
      obtain rfl : k = k' := Std.LawfulEqOrd.eq_of_compare hk
      refine ⟨[], rest, ?_, ?_⟩
      · simp [lookup]
      · simp [alterEntries, lookup]
    | gt =>
      obtain ⟨pre, post, hl, hal⟩ := ih hrest
      refine ⟨(k', v) :: pre, post, ?_, ?_⟩
      · simpa [lookup, hk] using hl
      · simpa [alterEntries, lookup, hk] using hal

/-- Around the entry of `k` nothing changes. -/
theorem alter_split [Std.TransOrd κ] [Std.LawfulEqOrd κ] (m : KeyMap κ β) (k : κ)
    (f : Option β → β) :
    ∃ pre post, m.entries = pre ++ ((m.get? k).map (k, ·)).toList ++ post ∧
      (m.alter k f).entries = pre ++ (k, f (m.get? k)) :: post :=
  alterEntries_split k f m.sorted

/-! ## Members -/

theorem mem_keys_iff [Std.LawfulEqOrd κ] {m : KeyMap κ β} {k : κ} :
    k ∈ m.keys ↔ ∃ v, m.get? k = some v := by
  simp only [keys, List.mem_map, get?_eq_some_iff, Prod.exists, exists_and_right, exists_eq_right]

theorem mem_values_iff [Std.LawfulEqOrd κ] {m : KeyMap κ β} {v : β} :
    v ∈ m.values ↔ ∃ k, m.get? k = some v := by
  simp only [values, List.mem_map, get?_eq_some_iff, Prod.exists, exists_eq_right]

theorem nodup_keys [Std.ReflOrd κ] (m : KeyMap κ β) : m.keys.Nodup := by
  refine List.pairwise_map.mpr (m.sorted.imp fun {a b} hlt heq => ?_)
  rw [heq, Std.ReflOrd.compare_self] at hlt
  nomatch hlt

/-- Keys are listed in ascending order. -/
theorem pairwise_keys [LE κ] [LT κ] [Std.LawfulOrderOrd κ] [Std.LawfulOrderLT κ] (m : KeyMap κ β) :
    m.keys.Pairwise (· < ·) :=
  List.pairwise_map.mpr (m.sorted.imp Std.compare_eq_lt.mp)

/-- At most one entry has a given key. -/
theorem filter_entries [Std.LawfulEqOrd κ] [DecidableEq κ] {k : κ}
    {l : List (κ × β)} (h : (l.map (·.1)).Nodup) :
    l.filter (·.1 = k) = ((lookup k l).map (k, ·)).toList := by
  induction l with
  | nil => rfl
  | cons e rest ih =>
    obtain ⟨k', v⟩ := e
    obtain ⟨hnot, hrest⟩ := List.nodup_cons.mp h
    by_cases hk : k' = k
    · subst hk
      have hnone : rest.filter (·.1 = k') = [] := by
        refine List.filter_eq_nil_iff.mpr fun e he hk => hnot ?_
        exact List.mem_map.mpr ⟨e, he, of_decide_eq_true hk⟩
      rw [List.filter_cons_of_pos (by simp), hnone]
      simp [lookup, Std.ReflOrd.compare_self]
    · have hne : compare k k' ≠ .eq := fun he => hk (Std.LawfulEqOrd.eq_of_compare he).symm
      rw [List.filter_cons_of_neg (by simpa using hk), ih hrest]
      simp [lookup, hne]

/-- Where values know their keys, the values of one key are what is stored there. -/
theorem filter_values [Std.LawfulEqOrd κ] [DecidableEq κ] {m : KeyMap κ β}
    {key : β → κ} (h : ∀ k v, m.get? k = some v → key v = k) (k : κ) :
    m.values.filter (key · = k) = (m.get? k).toList := by
  have hsame : m.entries.filter (fun e => key e.2 = k) = m.entries.filter (·.1 = k) := by
    refine List.filter_congr fun e he => ?_
    rw [h e.1 e.2 ((get?_eq_some_iff m).mpr he)]
  rw [values, List.filter_map, Function.comp_def, hsame, filter_entries m.nodup_keys, get?]
  cases lookup k m.entries <;> rfl

/-! ## One entry among all -/

theorem flatMap_filter_eq {α γ : Type} {p : α → Bool} {l : List α} {f : α → List γ}
    (h : ∀ x ∈ l, p x = false → f x = []) : (l.filter p).flatMap f = l.flatMap f := by
  induction l with
  | nil => rfl
  | cons x rest ih =>
    obtain ⟨hx, hrest⟩ := List.forall_mem_cons.mp h
    rw [List.filter_cons, List.flatMap_cons, ← ih hrest]
    cases hp : p x with
    | true => exact List.flatMap_cons
    | false => rw [hx hp]; rfl

/-- Where only the entry of `k` contributes, all entries give what it gives. -/
theorem flatMap_entries [Std.LawfulEqOrd κ] [DecidableEq κ] {γ : Type} {m : KeyMap κ β} {k : κ}
    {f : κ × β → List γ} (h : ∀ e ∈ m.entries, e.1 ≠ k → f e = []) :
    m.entries.flatMap f = ((m.get? k).map (k, ·)).toList.flatMap f := by
  have hone : m.entries.filter (·.1 = k) = ((m.get? k).map (k, ·)).toList :=
    filter_entries m.nodup_keys
  rw [← hone]
  refine (flatMap_filter_eq fun e he hne => h e he ?_).symm
  exact of_decide_eq_false hne

/-! ## Look-up -/

theorem get?_insertIfNew [Std.TransOrd κ] [Std.LawfulEqOrd κ] [DecidableEq κ] (m : KeyMap κ β)
    (k k' : κ) (v : β) :
    (m.insertIfNew k v).get? k' = if k = k' then some ((m.get? k).getD v) else m.get? k' :=
  get?_alter m k k' _

theorem get?_erase [Std.TransOrd κ] [Std.LawfulEqOrd κ] [DecidableEq κ] (m : KeyMap κ β)
    (k k' : κ) : (m.erase k).get? k' = if k = k' then none else m.get? k' := by
  apply Option.ext
  intro v
  rw [get?_eq_some_iff, erase, filter, List.mem_filter, ← get?_eq_some_iff]
  by_cases h : k = k'
  · subst h
    simp
  · have hne : compare k' k ≠ .eq := fun he => h (Std.LawfulEqOrd.eq_of_compare he).symm
    simp [h, hne]

/-- Erasing a key takes its entry out and leaves the others in their order. -/
theorem entries_erase [Std.OrientedOrd κ] {m : KeyMap κ β} {pre post : List (κ × β)} {e : κ × β}
    (h : m.entries = pre ++ e :: post) : (m.erase e.1).entries = pre ++ post := by
  have hsorted := m.sorted
  rw [h, List.pairwise_append, List.pairwise_cons] at hsorted
  obtain ⟨-, ⟨hpost, -⟩, hpre⟩ := hsorted
  have hkeep : ∀ x ∈ pre ++ post, (compare x.1 e.1 != .eq) = true := by
    intro x hx
    rcases List.mem_append.mp hx with hx | hx
    · rw [hpre x hx e (by simp)]
      rfl
    · rw [Std.OrientedCmp.gt_of_lt (hpost x hx)]
      rfl
  show m.entries.filter (fun x => compare x.1 e.1 != .eq) = _
  rw [← List.filter_eq_self.mpr hkeep, h, List.filter_append, List.filter_cons_of_neg,
    List.filter_append]
  simp

theorem ofList_append [Std.TransOrd κ] (l : List (κ × β)) (e : κ × β) :
    ofList (l ++ [e]) = (ofList l).insert e.1 e.2 := by
  simp [ofList]

/-- What a list of entries stores is in the list, and its keys are those of the list. -/
theorem get?_ofList [Std.TransOrd κ] [Std.LawfulEqOrd κ] [DecidableEq κ] (l : List (κ × β))
    (k : κ) :
    (∀ v, (ofList l).get? k = some v → (k, v) ∈ l) ∧
      (k ∈ l.map (·.1) → ((ofList l).get? k).isSome = true) := by
  induction l using List.reverseRecOn with
  | nil => exact ⟨nofun, nofun⟩
  | append_singleton l e ih =>
    rw [ofList_append, get?_insert]
    by_cases he : e.1 = k
    · subst he
      rw [if_pos rfl]
      refine ⟨fun v hv => ?_, fun _ => rfl⟩
      obtain rfl := Option.some.inj hv
      exact List.mem_append_right _ (List.mem_singleton.mpr rfl)
    · rw [if_neg he]
      refine ⟨fun v hv => List.mem_append_left _ (ih.1 v hv), fun hk => ih.2 ?_⟩
      rw [List.map_append, List.mem_append] at hk
      exact hk.resolve_right fun hk => he (List.mem_singleton.mp hk).symm

/-- In a list that names no key twice, every entry counts. -/
theorem get?_ofList_of_mem [Std.TransOrd κ] [Std.LawfulEqOrd κ] [DecidableEq κ]
    {l : List (κ × β)} (hkeys : (l.map (·.1)).Nodup) {k : κ} {v : β} (h : (k, v) ∈ l) :
    (ofList l).get? k = some v := by
  obtain ⟨hmem, hsome⟩ := get?_ofList l k
  obtain ⟨v', hv'⟩ := Option.isSome_iff_exists.mp (hsome (List.mem_map_of_mem h))
  have he : (k, v') = (k, v) := List.inj_on_of_nodup_map hkeys (hmem v' hv') h rfl
  rw [hv', (Prod.mk.inj he).2]

/-- The map of such a list has its entries, and no others. -/
theorem entries_ofList_perm [Std.TransOrd κ] [Std.LawfulEqOrd κ] [DecidableEq κ]
    {l : List (κ × β)} (hkeys : (l.map (·.1)).Nodup) : (ofList l).entries.Perm l := by
  have hentries : (ofList l).entries.Nodup := List.Nodup.of_map _ (nodup_keys (ofList l))
  refine (List.perm_ext_iff_of_nodup hentries (List.Nodup.of_map _ hkeys)).mpr fun e => ?_
  rw [← get?_eq_some_iff]
  exact ⟨(get?_ofList l e.1).1 e.2, get?_ofList_of_mem hkeys⟩

theorem get?_filter_key [Std.LawfulEqOrd κ] (keep : κ → Bool) (m : KeyMap κ β) (k : κ) :
    (m.filter fun k _ => keep k).get? k = if keep k then m.get? k else none := by
  refine Option.ext fun v => ?_
  rw [get?_eq_some_iff, filter, List.mem_filter, ← get?_eq_some_iff]
  cases keep k <;> simp

/-- Entries that are left out of a list are left out of its map. -/
theorem filter_ofList [Std.TransOrd κ] [Std.LawfulEqOrd κ] [DecidableEq κ] (keep : κ → Bool)
    (l : List (κ × β)) :
    (ofList l).filter (fun k _ => keep k) = ofList (l.filter (keep ·.1)) := by
  induction l using List.reverseRecOn with
  | nil => rfl
  | append_singleton l e ih =>
    refine ext_get? fun k => ?_
    have hrest : (ofList (l.filter (keep ·.1))).get? k =
        if keep k then (ofList l).get? k else none := by
      rw [← ih, get?_filter_key]
    rw [get?_filter_key, ofList_append, get?_insert, List.filter_append]
    cases hkeep : keep e.1 with
    | true =>
      have hone : [e].filter (keep ·.1) = [e] := by simp [hkeep]
      rw [hone, ofList_append, get?_insert, hrest]
      by_cases he : e.1 = k
      · rw [if_pos he, if_pos he, if_pos (he ▸ hkeep)]
      · rw [if_neg he, if_neg he]
    | false =>
      have hnone : [e].filter (keep ·.1) = [] := by simp [hkeep]
      rw [hnone, List.append_nil, hrest]
      by_cases he : e.1 = k
      · have : keep k = false := he ▸ hkeep
        simp [this]
      · rw [if_neg he]

/-! ## Changing the values -/

section

variable {γ : Type}

theorem get?_map (f : β → γ) (m : KeyMap κ β) (k : κ) : (m.map f).get? k = (m.get? k).map f := by
  have hlookup : ∀ l : List (κ × β),
      lookup k (l.map fun e => (e.1, f e.2)) = (lookup k l).map f := by
    intro l
    induction l with
    | nil => rfl
    | cons e rest ih =>
      rw [List.map_cons, lookup, lookup]
      split
      · rfl
      · exact ih
  exact hlookup m.entries

theorem map_insert [Std.TransOrd κ] [Std.LawfulEqOrd κ] [DecidableEq κ] (f : β → γ)
    (m : KeyMap κ β) (k : κ) (v : β) : (m.insert k v).map f = (m.map f).insert k (f v) := by
  refine ext_get? fun k' => ?_
  rw [get?_map, get?_insert, get?_insert, get?_map]
  split <;> rfl

theorem map_erase [Std.TransOrd κ] [Std.LawfulEqOrd κ] [DecidableEq κ] (f : β → γ)
    (m : KeyMap κ β) (k : κ) : (m.erase k).map f = (m.map f).erase k := by
  refine ext_get? fun k' => ?_
  rw [get?_map, get?_erase, get?_erase, get?_map]
  split <;> rfl

end

end ListMode.KeyMap
