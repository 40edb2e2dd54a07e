import ListMode.Proofs.Merger.Accounts

/-!
# Nothing is held back without a reason

A push emits until an open lane is empty and lets spills leave in a single pass, oldest first. After
it the merger stands still: one more pass would release nothing, since whatever stays in flight has
hits in a lane or is held back by something older that stays. Without an empty open lane nothing has
a reason to stay, and so nothing is left over at the end.
-/

namespace ListMode

namespace Hold

/-- The spills that stay in flight, oldest first, when `hold` holds spills back already. -/
def retained (hold : Hold) : List (Nat × InFlight) → List (Nat × InFlight)
  | [] => []
  | x :: rest => if hold.releases x.2 then hold.retained rest else x :: (hold.add x.2).retained rest

theorem retained_subset {hold : Hold} {l : List (Nat × InFlight)} : hold.retained l ⊆ l := by
  induction l generalizing hold with
  | nil => exact List.Subset.refl _
  | cons x rest ih =>
    rw [retained]
    split
    · exact List.subset_cons_of_subset x ih
    · exact List.cons_subset_cons x ih

/-- What stays was held back from the beginning, or something older that stays holds it back. -/
theorem holds_of_mem_retained {hold : Hold} {l : List (Nat × InFlight)} {x : Nat × InFlight}
    (hl : l.Pairwise fun a b => a.1 < b.1) (hx : x ∈ hold.retained l) :
    ¬hold.releases x.2 = true ∨ ∃ y ∈ hold.retained l, y.1 < x.1 ∧ y.2.Holds x.2 := by
  induction l generalizing hold with
  | nil => cases hx
  | cons z rest ih =>
    obtain ⟨hlt, hrest⟩ := List.pairwise_cons.mp hl
    rw [retained] at hx ⊢
    split at hx
    · rename_i hz
      rw [if_pos hz]
      exact ih hrest hx
    · rename_i hz
      rw [if_neg hz]
      rcases List.mem_cons.mp hx with rfl | hx
      · exact .inl hz
      · rcases ih hrest hx with hnot | ⟨y, hy, hyx, hholds⟩
        · by_cases hzx : z.2.Holds x.2
          · exact .inr ⟨z, List.mem_cons_self, hlt x (retained_subset hx), hzx⟩
          · exact .inl fun hr => hnot (releases_add_iff.mpr ⟨hr, hzx⟩)
        · exact .inr ⟨y, List.mem_cons_of_mem _ hy, hyx, hholds⟩

end Hold

namespace Merger

/-! ## What stays in flight -/

/-- Draining leaves the spills in flight that stay. -/
theorem entries_drain (m : Merger) :
    m.drain.inFlight.entries = Hold.none.retained m.inFlight.entries := by
  have key : ∀ (todo kept : List (Nat × InFlight)) (m : Merger) (hold : Hold),
      m.inFlight.entries = kept ++ todo →
      (todo.foldl drainOne (m, hold)).1.inFlight.entries = kept ++ hold.retained todo := by
    intro todo
    induction todo with
    | nil => exact fun kept m hold h => h
    | cons x rest ih =>
      intro kept m hold h
      rw [List.foldl_cons, Hold.retained, drainOne]
      split
      · apply ih
        rw [(deliver_fields _ x.2.spill).2.1]
        exact KeyMap.entries_erase h
      · rw [ih (kept ++ [x])]
        · simp
        · simp [h]
  exact key m.inFlight.entries [] m .none rfl

/-- Nothing more can be emitted, and what is in flight has hits to be emitted or is held back. -/
structure Standstill (m : Merger) : Prop where
  merged : m.isHeldUp = true ∨ ∀ c, m.lane c = []
  held : ∀ seq e, m.inFlight.get? seq = some e → e.remaining = 0 → ¬m.Unheld (seq, e)

section

variable {m : Merger}

/-- One pass over the spills in flight is enough. -/
theorem standstill_drain (h : m.Coherent) (hmerged : m.isHeldUp = true ∨ ∀ c, m.lane c = []) :
    m.drain.Standstill := by
  have hlanes : m.drain.lanes = m.lanes := lanes_drain h
  refine ⟨?_, ?_⟩
  · have hheld : m.drain.isHeldUp = m.isHeldUp := by
      rw [isHeldUp, isHeldUp, hlanes, closed_drain h]
    simpa only [hheld, lane, hlanes] using hmerged
  · intro seq e he hr hunheld
    have hmem := (KeyMap.get?_eq_some_iff _).mp he
    rw [entries_drain] at hmem
    have hsorted := m.inFlight.sorted.imp fun h => Nat.compare_eq_lt.mp h
    rcases Hold.holds_of_mem_retained hsorted hmem with hnot | ⟨y, hy, hlt, hholds⟩
    · exact hnot (Hold.releases_none_iff.mpr hr)
    · rw [← entries_drain] at hy
      exact hunheld y.1 y.2 ((KeyMap.get?_eq_some_iff _).mpr hy) hlt hholds

/-- The spill that would leave first is held back. -/
theorem Standstill.leaving_eq (h : m.Standstill) : m.leaving = [] := by
  cases hl : m.leaving with
  | nil => rfl
  | cons x rest =>
    have hx : x ∈ m.leaving := by
      rw [hl]
      exact List.mem_cons_self
    have hfirst : m.leaving = [] ++ x :: rest := hl
    have hunheld := unheld_of_leaving hfirst
    exact absurd hunheld (h.held x.1 x.2 (get?_of_mem_leaving hx) (remaining_of_mem_released hx))

/-- Another pass releases nothing. -/
theorem Standstill.drain_eq (h : m.Standstill) : m.drain = m := by
  rw [Merger.drain_eq, h.leaving_eq]
  rfl

theorem Standstill.starved (h : m.Standstill) (hb : 0 < m.buffered) :
    ∃ c l, m.lanes.get? c = some l ∧ l.isOpen = true ∧ l.hits = [] := by
  rcases h.merged with hheld | hnone
  · rw [isHeldUp, Bool.and_eq_true, List.any_eq_true] at hheld
    obtain ⟨-, l, hl, hstarved⟩ := hheld
    obtain ⟨c, hc⟩ := KeyMap.mem_values_iff.mp hl
    rw [Lane.isStarved, Bool.and_eq_true, List.isEmpty_iff] at hstarved
    exact ⟨c, l, hc, hstarved⟩
  · rw [buffered_eq, List.length_pos_iff_exists_mem] at hb
    obtain ⟨x, hx⟩ := hb
    obtain ⟨c, hx⟩ := mem_laned.mp hx
    rw [← lane, hnone c] at hx
    cases hx

/-- Spills are in flight exactly as long as hits are buffered. -/
theorem Standstill.size_eq_zero_iff (h : m.Standstill) (hc : m.Coherent) :
    m.inFlight.size = 0 ↔ m.buffered = 0 := by
  rw [KeyMap.size, List.length_eq_zero_iff, buffered_eq, List.length_eq_zero_iff]
  constructor
  · intro hnone
    apply List.eq_nil_iff_forall_not_mem.mpr
    intro x hx
    have hkey := hc.tag_mem x.2 (List.mem_map_of_mem hx)
    rw [KeyMap.keys, hnone] at hkey
    cases hkey
  · intro hnone
    have hall : m.leaving = m.inFlight.entries := by
      apply Hold.released_none
      intro x hx
      rw [hc.remaining_eq x.1 x.2 ((KeyMap.get?_eq_some_iff _).mpr hx), tags, hnone]
      rfl
    rw [← hall, h.leaving_eq]

/-- Why a spill is still in flight: it has a hit in a lane, or an older one in flight has to leave
before it. -/
theorem Standstill.reason {m₀ : Merger} {past : List Spill} (h : m.Standstill) (hc : m.Coherent)
    (ht : m₀.Tracks past m) {seq : Nat} (hseq : seq ∈ m.inFlight.keys) :
    ∃ s, past[seq]? = some s ∧ ((∃ hit, (hit, seq) ∈ m.lane hit.channel) ∨
      ∃ i ∈ m.inFlight.keys, i < seq ∧ ∃ s', past[i]? = some s' ∧ m₀.Precedes s' s) := by
  obtain ⟨e, he⟩ := KeyMap.mem_keys_iff.mp hseq
  obtain ⟨s, hs, -, -⟩ := ht.entry_eq seq e he
  refine ⟨s, hs, ?_⟩
  by_cases hr : e.remaining = 0
  · apply Or.inr
    have hheld := h.held seq e he hr
    simp only [Unheld, not_forall, Classical.not_not] at hheld
    obtain ⟨i, e', he', hlt, hholds⟩ := hheld
    obtain ⟨s', hs', -, -⟩ := ht.entry_eq i e' he'
    have hprecedes : m₀.Precedes s' s := (ht.holds_iff he' he hs' hs).mp hholds
    exact ⟨i, KeyMap.mem_keys_iff.mpr ⟨e', he'⟩, hlt, s', hs', hprecedes⟩
  · apply Or.inl
    have hpos : 0 < m.tags.count seq := by
      rw [← hc.remaining_eq seq e he]
      omega
    obtain ⟨⟨hit, seq'⟩, hx, rfl⟩ := List.mem_map.mp (List.count_pos_iff.mp hpos)
    obtain ⟨c, hx⟩ := mem_laned.mp hx
    have hchannel : hit.channel = c := hc.channel_eq c _ hx
    exact ⟨hit, hchannel ▸ hx⟩

theorem Fresh.standstill_pushAll (hm : m.Fresh) (spills : List Spill) :
    (m.pushAll spills).Standstill := by
  induction spills using List.reverseRecOn with
  | nil =>
    refine ⟨.inr hm.lane_eq, fun seq e he => ?_⟩
    have hnone : m.inFlight.get? seq = some e := he
    rw [hm.inFlight_eq] at hnone
    cases hnone
  | append_singleton past s _ =>
    have hr := (hm.coherent.pushAll past).receive s
    rw [pushAll_append]
    exact standstill_drain hr.merge hr.lane_merge

end

/-- After every push: if hits are buffered, an open lane is empty; spills are in flight exactly as
long as hits are buffered; only then do emitted hits wait for a delivery; and whatever is in flight
has a hit in a lane or is preceded by something older in flight, so that draining again changes
nothing. At the end nothing is in flight and no emitted hit waits when everything has been emitted
and released, so there is no delivery beyond these; the sink, which was told nothing but the spills,
is flushed once, after them. -/
theorem held_back_with_reason {m : Merger} (hm : m.Fresh) (spills : List Spill) :
    let m' := m.pushAll spills
    (0 < m'.buffered → ∃ c l, m'.lanes.get? c = some l ∧ l.isOpen = true ∧ l.hits = []) ∧
    (m'.inFlight.size = 0 ↔ m'.buffered = 0) ∧
    (m'.output ≠ [] → 0 < m'.inFlight.size) ∧
    (∀ seq ∈ m'.inFlight.keys, ∃ s, spills[seq]? = some s ∧
      ((∃ hit, (hit, seq) ∈ m'.lane hit.channel) ∨
        ∃ i ∈ m'.inFlight.keys, i < seq ∧ ∃ s', spills[i]? = some s' ∧ m.Precedes s' s)) ∧
    m'.drain = m' ∧
    m'.wound.inFlight.size = 0 ∧ m'.wound.output = [] ∧ m'.exhaust = m'.wound ∧
    m'.sink.calls = m.sink.calls ++ (m'.handedSince m).map .add ∧
    m'.finish.sink.calls = m.sink.calls ++ (m'.finish.handedSince m).map .add ++ [.flush] := by
  intro m'
  have hc : m'.Coherent := hm.coherent.pushAll spills
  have ht : m.Tracks spills m' := hm.tracks_pushAll spills
  have hl : m.Logged spills (m.history spills) m' := hm.logged_pushAll spills
  have hs : m'.Standstill := hm.standstill_pushAll spills
  have hgone : m'.wound.inFlight.keys = [] := inFlight_wound hc
  refine ⟨hs.starved, hs.size_eq_zero_iff hc, ?_, fun seq hseq => hs.reason hc ht hseq, hs.drain_eq,
    ?_, ?_, hl.exhaust_eq ht hc, ?_, ?_⟩
  · intro hout
    rw [KeyMap.size, List.length_pos_iff]
    intro hnone
    apply hl.output_backed.resolve_left hout
    rw [KeyMap.keys, hnone]
    rfl
  · rw [KeyMap.size, ← List.length_map (·.1)]
    exact congrArg List.length hgone
  · exact (hl.wound ht hc).output_backed.resolve_right fun hne => hne hgone
  · obtain ⟨htold, -⟩ := hm.sink_ran spills false
    rw [← Sink.calls_foldl_add]
    exact congrArg Sink.calls htold
  · obtain ⟨htold, -⟩ := hm.sink_ran spills true
    have hflush := congrArg Sink.calls htold
    rw [← Sink.calls_foldl_add]
    exact hflush

/-- Channel 1 is silent: a hit waits for it, and statistics of the source and a boundary wait for
the hit. -/
theorem held_back_with_reason_silent_channel :
    let m := (new .empty).withChannels [0, 1]
    let spills : List Spill := [.events "left" [⟨0, 20, 7, .empty⟩],
      (Spill.events "left" []).withStats (.new 0.0 2 .running ⟨0, 0⟩), .boundary default]
    m.Fresh ∧ (m.pushAll spills).inFlight.keys = [0, 1, 2] ∧ 0 < (m.pushAll spills).buffered ∧
      (∃ c l, (m.pushAll spills).lanes.get? c = some l ∧ l.isOpen = true ∧ l.hits = []) ∧
      (m.pushAll spills).drain = m.pushAll spills ∧ (m.pushAll spills).wound.output = [] ∧
      ((m.pushAll spills).finish.handedSince m).length = 3 := by
  intro m spills
  have hm : m.Fresh := (fresh_new .empty).withChannels [0, 1]
  have hbuffered : 0 < (m.pushAll spills).buffered := by decide
  obtain ⟨hstarved, -, -, -, hdrain, -, hout, -⟩ := held_back_with_reason hm spills
  exact ⟨hm, by decide, hbuffered, hstarved hbuffered, hdrain, hout, by decide⟩

end Merger

end ListMode
