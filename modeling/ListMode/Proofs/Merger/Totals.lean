import ListMode.Proofs.Merger.Bracket

/-!
# Totals of the boundaries

A boundary leaves after all older spills, so that boundaries leave in the order in which they were
pushed, and the number of those that left before tells which one it is. A closing one is told how
many hits are handed over by then. All that arrived before it is among them.
-/

namespace ListMode.Merger

/-- Run metadata of the boundaries among `spills`. -/
def boundaries (spills : List Spill) : List RunInfo := spills.filterMap (·.run)

/-- Boundaries have something in them. -/
theorem boundaries_filter (spills : List Spill) :
    boundaries (spills.filter (!·.isEmpty)) = boundaries spills := by
  rw [boundaries, List.filterMap_filter]
  apply List.filterMap_congr
  intro s _
  cases hr : s.run with
  | none => simp
  | some run => simp [Spill.isEmpty, hr]

section

variable {m₀ m : Merger} {past : List Spill} {log before after : List Departure} {d : Departure}

theorem Departs.run_eq {s : Spill} (h : m₀.Departs past before d s) :
    d.parcel.run = s.run.map (stamp (Departure.hits (before ++ [d])).length) := by
  rw [h.parcel_eq]

/-- A boundary leaves after the older spills and before the younger boundaries. -/
theorem Logged.mem_before_boundary (h : m₀.Logged past log m) (hlog : log = before ++ d :: after)
    (hrun : d.parcel.run.isSome = true) {i : Nat}
    (hi : (past[i]?.bind (·.run)).isSome = true) : i ∈ before.map (·.seq) ↔ i < d.seq := by
  obtain ⟨s, hs⟩ := h.departs before d after hlog
  have hnodup := h.nodup
  constructor
  · intro hmem
    obtain ⟨d', hd', rfl⟩ := List.mem_map.mp hmem
    obtain ⟨b, a, rfl⟩ := List.append_of_mem hd'
    obtain ⟨s', hs'⟩ := h.departs b d' (a ++ d :: after) (by simp [hlog])
    rw [hs'.spill_eq, Option.bind_some] at hi
    rw [hlog] at hnodup
    simp only [List.map_append, List.map_cons, List.append_assoc, List.cons_append,
      List.nodup_append, List.nodup_cons, List.mem_append, List.mem_cons] at hnodup
    have hne : d'.seq ≠ d.seq := fun he => hnodup.2.1.1 (.inr (.inl he))
    by_contra hnot
    -- The younger boundary d' would have left after d.
    have hmem : d.seq ∈ b.map (·.seq) := hs'.older d.seq s (by omega) hs.spill_eq (.inl hi)
    exact hnodup.2.2 _ hmem _ (.inr (.inr (.inl rfl))) rfl
  · intro hlt
    have hsrun : s.run.isSome = true := by
      rw [hs.run_eq] at hrun
      simpa using hrun
    obtain ⟨run, hrun'⟩ := Option.isSome_iff_exists.mp hi
    obtain ⟨s', hs', -⟩ := Option.bind_eq_some_iff.mp hrun'
    exact hs.older i s' hlt hs' (.inl hsrun)

/-- As many boundaries left before a boundary as were pushed before it. -/
theorem Logged.length_boundaries (h : m₀.Logged past log m) (hlog : log = before ++ d :: after)
    (hrun : d.parcel.run.isSome = true) :
    (boundaries (past.take d.seq)).length = (boundaries (before.map (·.parcel))).length := by
  let p (i : Nat) : Bool := (past[i]?.bind (·.run)).isSome
  have hcount : (boundaries (before.map (·.parcel))).length = (before.map (·.seq)).countP p := by
    rw [boundaries, List.length_filterMap_eq_countP, List.countP_map, List.countP_map]
    apply List.countP_congr
    intro d' hd'
    obtain ⟨b, a, rfl⟩ := List.append_of_mem hd'
    obtain ⟨s', hs'⟩ := h.departs b d' (a ++ d :: after) (by simp [hlog])
    simp [p, hs'.spill_eq, hs'.run_eq]
  have hsame : ((before.map (·.seq)).filter p).Perm ((List.range d.seq).filter p) := by
    have hnodup := h.nodup
    rw [hlog, List.map_append] at hnodup
    apply (List.perm_ext_iff_of_nodup ((List.nodup_append.mp hnodup).1.filter _)
      (List.nodup_range.filter _)).mpr
    intro i
    rw [List.mem_filter, List.mem_filter, List.mem_range]
    apply and_congr_left
    exact h.mem_before_boundary hlog hrun
  rw [hcount, boundaries, ← filterMap_range, List.length_filterMap_eq_countP,
    List.countP_eq_length_filter, List.countP_eq_length_filter]
  exact hsame.length_eq.symm

/-- What was handed over before a delivery left before it. -/
theorem Logged.split_handed (h : m₀.Logged past log m) {handed later : List Spill} {parcel : Spill}
    (hh : m.handedSince m₀ = handed ++ parcel :: later) :
    ∃ before d after, log = before ++ d :: after ∧ d.parcel = parcel ∧
      handed = (before.map (·.parcel)).filter (!·.isEmpty) := by
  rw [h.handed_eq] at hh
  obtain ⟨l₁, l₂, hl, rfl, hl₂⟩ := List.filter_eq_append_iff.mp hh
  obtain ⟨k₁, k₂, rfl, hk₁, -, -⟩ := List.filter_eq_cons_iff.mp hl₂
  rw [← List.append_assoc] at hl
  obtain ⟨before, rest, rfl, hbefore, hrest⟩ := List.map_eq_append_iff.mp hl
  obtain ⟨d, after, rfl, rfl, -⟩ := List.map_eq_cons_iff.mp hrest
  refine ⟨before, d, after, rfl, rfl, ?_⟩
  rw [hbefore, List.filter_append, List.filter_eq_nil_iff.mpr hk₁, List.append_nil]

/-- When a boundary is handed over, all that arrived with it or before it has been handed over. -/
theorem Departs.length_arrivals_le {s : Spill} (h : m₀.Departs past before d s)
    (hrun : s.run.isSome = true) :
    (m₀.arrivals (past.take (d.seq + 1))).length ≤ (Departure.hits (before ++ [d])).length := by
  apply Hit.length_le_of_onChannel
  intro c
  exact h.handedOver c (.inr hrun)

/-- The origin of a boundary that was handed over, and the total it was told. -/
theorem Logged.origin (h : m₀.Logged past log m) {handed later : List Spill} {parcel : Spill}
    {run : RunInfo} (hh : m.handedSince m₀ = handed ++ parcel :: later)
    (hrun : parcel.run = some run) :
    ∃ earlier s younger pushed, past = earlier ++ s :: younger ∧ s.run = some pushed ∧
      (boundaries earlier).length = (boundaries handed).length ∧
      run = stamp ((handed ++ [parcel]).flatMap Spill.hits).length pushed ∧
      (m₀.arrivals (earlier ++ [s])).length ≤
        ((handed ++ [parcel]).flatMap Spill.hits).length := by
  obtain ⟨before, d, after, hlog, rfl, rfl⟩ := h.split_handed hh
  obtain ⟨s, hs⟩ := h.departs before d after hlog
  have hhits : (((before.map (·.parcel)).filter (!·.isEmpty) ++ [d.parcel]).flatMap
      Spill.hits) = Departure.hits (before ++ [d]) := by
    rw [List.flatMap_append, flatMap_hits_filter, List.flatMap_map, hits_append,
      List.flatMap_singleton]
    rfl
  have hstamp := hrun
  rw [hs.run_eq] at hstamp
  obtain ⟨pushed, hpushed, hstamp⟩ := Option.map_eq_some_iff.mp hstamp
  obtain ⟨hlt, hget⟩ := List.getElem?_eq_some_iff.mp hs.spill_eq
  have hsplit : past.take d.seq ++ [s] = past.take (d.seq + 1) := by
    rw [List.take_add_one, hs.spill_eq]
    rfl
  refine ⟨past.take d.seq, s, past.drop (d.seq + 1), pushed, ?_, hpushed, ?_, ?_, ?_⟩
  · rw [← hget, List.getElem_cons_drop, List.take_append_drop]
  · rw [h.length_boundaries hlog (by simp [hrun]), boundaries_filter]
  · rw [hhits, hstamp]
  · rw [hhits, hsplit]
    exact hs.length_arrivals_le (by simp [hpushed])

end

/-- Whatever boundaries are pushed, at any point of a run and after its end: a boundary that was
handed over is the one with as many boundaries pushed before it as were handed over before. A
closing one is told the number of the hits that were handed over up to and with it, an opening one
is handed over as it was pushed, and the hits that arrived up to its push are no more than those
handed over. When a closing boundary is pushed last, it is handed over last, and its total is that
of the report and the number of all hits. -/
theorem closing_totals {m : Merger} (hm : m.Fresh) (spills : List Spill) :
    (∀ finished before d after run,
      (m.ran spills finished).handedSince m = before ++ d :: after → d.run = some run →
      let total := ((before ++ [d]).flatMap Spill.hits).length
      ∃ past s future pushed, spills = past ++ s :: future ∧ s.run = some pushed ∧
        (boundaries past).length = (boundaries before).length ∧
        (pushed.isClosing = true → run = { pushed with totalEvents := total }) ∧
        (pushed.isClosing = false → run = pushed) ∧
        (m.arrivals (past ++ [s])).length ≤ total) ∧
    ∀ past s closing, spills = past ++ [s] → s.run = some closing → closing.isClosing = true →
      ∃ before d, (m.pushAll spills).finish.handedSince m = before ++ [d] ∧
        d.stats = s.stats ∧ d.detectors = s.detectors ∧
        d.run = some { closing with totalEvents := (m.pushAll spills).finish.report.eventsOut } ∧
        (m.pushAll spills).finish.report.eventsOut = (m.arrivals spills).length := by
  constructor
  · intro finished before d after run hh hrun total
    obtain ⟨past, s, future, pushed, hsplit, hpushed, hcount, hstamp, hle⟩ :=
      (hm.logged_ran spills finished).origin hh hrun
    refine ⟨past, s, future, pushed, hsplit, hpushed, hcount, ?_, ?_, hle⟩
    · intro hclosing
      rw [hstamp, stamp, if_pos hclosing]
    · intro hopening
      rw [hstamp, stamp, hopening]
      rfl
  · rintro past s closing rfl hrun hclosing
    have hl := hm.logged_ran (past ++ [s]) true
    have hgone := hm.inFlight_ran (past ++ [s])
    have hout := hm.eventsOut_finish (past ++ [s])
    obtain ⟨before, d, hlog, -, hd⟩ := hl.ends_with_boundary hgone (by simp [hrun])
    have hcount : (Departure.hits (before ++ [d])).length = (m.arrivals (past ++ [s])).length := by
      rw [← hlog, ← hl.deliveredSince_eq, ← hout]
      exact (hm.tracks_ran (past ++ [s]) true).eventsOut_eq.symm
    have htold : d.parcel.run = some { closing with
        totalEvents := (m.pushAll (past ++ [s])).finish.report.eventsOut } := by
      rw [hd.run_eq, hrun, hcount, hout]
      simp [stamp, hclosing]
    refine ⟨(before.map (·.parcel)).filter (!·.isEmpty), d.parcel, ?_, ?_, ?_, htold, hout⟩
    · have hhanded := hl.handed_eq
      rw [hlog, List.map_append, List.filter_append, List.map_singleton,
        List.filter_cons_of_pos (by simpa using not_isEmpty_of_run htold), List.filter_nil]
        at hhanded
      exact hhanded
    · rw [hd.parcel_eq]
    · rw [hd.parcel_eq]

/-- Hits of a silent channel keep two closing boundaries back, which claim totals of their own. -/
theorem closing_totals_two_runs :
    let hits (c : Channel) (t : UInt64) : List Hit := [⟨c, t, 7, .empty⟩]
    let m := (new .empty).withChannels [0, 1]
    let closing : RunInfo :=
      { (default : RunInfo) with timeStop := some (.ofMillis 8), totalEvents := 99 }
    let past : List Spill := [.boundary default, .events "left" (hits 0 10), .boundary closing,
      .boundary default, .events "left" (hits 0 20), .events "right" (hits 1 5)]
    m.Fresh ∧ ∃ before d,
      (m.pushAll (past ++ [.boundary closing])).finish.handedSince m = before ++ [d] ∧
      d.run = some { closing with totalEvents := 3 } ∧
      ∃ earlier s future pushed, past ++ [.boundary closing] = earlier ++ s :: future ∧
        s.run = some pushed ∧ (boundaries earlier).length = (boundaries before).length ∧
        (m.arrivals (earlier ++ [s])).length ≤ ((before ++ [d]).flatMap Spill.hits).length := by
  intro hits m closing past
  have hm : m.Fresh := (fresh_new .empty).withChannels [0, 1]
  have harrivals : (m.arrivals (past ++ [.boundary closing])).length = 3 := by decide
  obtain ⟨htotals, hlast⟩ := closing_totals hm (past ++ [.boundary closing])
  obtain ⟨before, d, hhanded, -, -, hrun, hout⟩ :=
    hlast past (.boundary closing) closing rfl rfl rfl
  obtain ⟨earlier, s, future, pushed, hsplit, hpushed, hcount, -, -, hle⟩ :=
    htotals true before d [] _ hhanded hrun
  rw [hout, harrivals] at hrun
  exact ⟨hm, before, d, hhanded, hrun, earlier, s, future, pushed, hsplit, hpushed, hcount, hle⟩

end ListMode.Merger
