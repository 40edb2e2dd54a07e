import ListMode.Proofs.Merger.DrainOrder
import ListMode.Proofs.Sink

/-!
# The accounts of a merger

What the report counts, what archive and tally of the sink hold, and what is still on its way are
accounts of one and the same stream of hits. `Told` is kept by every step: the sink has been told
the spills that were handed over, one after the other, and nothing else.
-/

namespace ListMode.Merger

/-! ## Hits that are still on their way -/

/-- Among all buffered hits those of a channel are the hits of its lane. -/
theorem Fronted.onChannel_laned {m : Merger} (h : m.Fronted) (c : Channel) :
    Hit.onChannel c ((laned m.lanes).map (·.1)) = (m.lane c).map (·.1) := by
  have hchannel : ∀ e ∈ m.lanes.entries, ∀ x ∈ e.2.hits, x.1.channel = e.1 := by
    intro e he x hx
    apply h.channel_eq e.1 x
    rwa [lane, hitsAt_eq ((KeyMap.get?_eq_some_iff m.lanes).mpr he)]
  rw [laned, KeyMap.values, List.flatMap_map, List.map_flatMap, Hit.onChannel,
    List.filter_flatMap, KeyMap.flatMap_entries (k := c), lane, hitsAt]
  · cases hl : m.lanes.get? c with
    | none => rfl
    | some l =>
      have hall := hchannel (c, l) ((KeyMap.get?_eq_some_iff m.lanes).mp hl)
      simp only [Option.map_some, Option.toList_some, List.flatMap_singleton, Option.getD_some]
      apply List.filter_eq_self.mpr
      intro y hy
      obtain ⟨x, hx, rfl⟩ := List.mem_map.mp hy
      exact decide_eq_true (hall x hx)
  · intro e he hne
    apply List.filter_eq_nil_iff.mpr
    intro y hy
    obtain ⟨x, hx, rfl⟩ := List.mem_map.mp hy
    simpa [hchannel e he x hx] using hne

section

variable {m₀ m m' : Merger} {past : List Spill}

/-- What has been emitted and what is buffered are together what has arrived. -/
theorem Tracks.perm (ht : m₀.Tracks past m) (hc : m.Coherent) :
    (m.emittedSince m₀ ++ (laned m.lanes).map (·.1)).Perm (m₀.arrivals past) := by
  apply Hit.perm_of_onChannel_eq
  intro c
  rw [Hit.onChannel_append, hc.onChannel_laned, ht.fifo]

/-- Every hit that has arrived is handed over, emitted or buffered. -/
theorem Tracks.census (ht : m₀.Tracks past m) (hc : m.Coherent) :
    m.report.eventsOut + m.output.length + m.buffered = (m₀.arrivals past).length := by
  rw [← (ht.perm hc).length_eq, ht.eventsOut_eq, buffered_eq, emittedSince, List.length_append,
    List.length_append, List.length_map]

/-! ## What the sink is told -/

/-- Since the merger was `m₀` its sink has been told some spills, one after the other, and nothing
else. The report has counted them. -/
def Told (m₀ m : Merger) : Prop :=
  ∃ handed : List Spill, m.sink = handed.foldl Sink.add m₀.sink ∧
    m.report.spillsOut = m₀.report.spillsOut + handed.length

theorem told_refl (m : Merger) : m.Told m := ⟨[], rfl, rfl⟩

theorem Told.of_eq (h : m₀.Told m) (hs : m'.sink = m.sink)
    (hr : m'.report.spillsOut = m.report.spillsOut) : m₀.Told m' := by
  obtain ⟨handed, hsink, hout⟩ := h
  exact ⟨handed, hs.trans hsink, hr.trans hout⟩

theorem Told.deliver (h : m₀.Told m) (origin : Spill) : m₀.Told (m.deliver origin) := by
  obtain ⟨handed, hsink, hout⟩ := h
  rw [Merger.deliver]
  dsimp only
  split
  · exact ⟨handed, hsink, hout⟩
  · refine ⟨handed ++ [m.parcel origin], ?_, ?_⟩
    · rw [List.foldl_append, ← hsink]
      rfl
    · rw [List.length_append, List.length_singleton]
      show m.report.spillsOut + 1 = _
      omega

theorem Told.merge (h : m₀.Told m) (hc : m.Coherent) : m₀.Told m.merge :=
  (hc.merge_induct h fun _ _ _ _ _ h he => h.of_eq he.sink_eq (by rw [he.report_eq])).1

theorem Told.drain (h : m₀.Told m) (hc : m.Coherent) : m₀.Told m.drain :=
  (hc.drain_induct h fun m x _ h _ _ =>
    Told.deliver (m := { m with inFlight := m.inFlight.erase x.1 }) h x.2.spill).1

theorem Told.push (h : m₀.Told m) (hc : m.Coherent) (s : Spill) : m₀.Told (m.push s) := by
  obtain ⟨hsink, -, -, -, -, hreport, -⟩ := receive_fields m s
  have hr : m₀.Told (m.receive s) := h.of_eq hsink (by rw [hreport]; rfl)
  exact (hr.merge (hc.receive s)).drain (hc.receive s).merge

theorem Told.pushAll (h : m₀.Told m) (hc : m.Coherent) (spills : List Spill) :
    m₀.Told (m.pushAll spills) := by
  induction spills generalizing m with
  | nil => exact h
  | cons s rest ih => exact ih (h.push hc s) (hc.push s)

theorem Told.wound (h : m₀.Told m) (hc : m.Coherent) : m₀.Told m.wound :=
  (Told.merge (m := m.close) h hc.close).drain hc.close.merge

/-- What the sink has been told is what has been handed over. -/
theorem Told.sink_eq (h : m₀.Told m) :
    m.sink = (m.handedSince m₀).foldl Sink.add m₀.sink ∧
      m.report.spillsOut = m₀.report.spillsOut + (m.handedSince m₀).length := by
  obtain ⟨handed, hsink, hout⟩ := h
  have hhanded : m.handedSince m₀ = handed := by
    rw [handedSince, hsink, Sink.foldl_add]
    exact List.drop_left
  rw [hhanded]
  exact ⟨hsink, hout⟩

end

/-! ## Whole runs -/

section

variable {m : Merger}

theorem Fresh.coherent_ran (hm : m.Fresh) (spills : List Spill) (finished : Bool) :
    (m.ran spills finished).Coherent := by
  have hc := hm.coherent.pushAll spills
  cases finished with
  | false => exact hc
  | true =>
    rw [ran, if_pos rfl, finish,
      (hm.logged_pushAll spills).exhaust_eq (hm.tracks_pushAll spills) hc]
    exact hc.close.merge.drain.of_eq rfl rfl rfl rfl

theorem Fresh.tracks_ran (hm : m.Fresh) (spills : List Spill) (finished : Bool) :
    m.Tracks spills (m.ran spills finished) := by
  have ht := hm.tracks_pushAll spills
  cases finished with
  | false => exact ht
  | true =>
    obtain ⟨hx, -, -⟩ := ht.exhaust (hm.coherent.pushAll spills)
    exact ⟨hx.decoders_eq, hx.nextSeq_eq, hx.sink_initial, hx.fifo, hx.lane_suffix, hx.entry_eq,
      hx.spillsIn_eq, hx.eventsOut_eq, hx.decodeErrors_eq⟩

/-- At the end nothing is on its way any more. -/
theorem Fresh.nothing_left (hm : m.Fresh) (spills : List Spill) :
    (m.pushAll spills).finish.output = [] ∧ (m.pushAll spills).finish.buffered = 0 := by
  obtain ⟨-, hout, hlane⟩ := (hm.tracks_pushAll spills).exhaust (hm.coherent.pushAll spills)
  refine ⟨hout, ?_⟩
  rw [buffered_eq, List.length_eq_zero_iff]
  apply List.eq_nil_iff_forall_not_mem.mpr
  intro x hx
  obtain ⟨c, hx⟩ := mem_laned.mp hx
  have hnil : hitsAt (m.pushAll spills).finish.lanes c = [] := hlane c
  rw [hnil] at hx
  cases hx

/-- At the end all hits that have arrived are handed over. -/
theorem Fresh.eventsOut_finish (hm : m.Fresh) (spills : List Spill) :
    (m.pushAll spills).finish.report.eventsOut = (m.arrivals spills).length := by
  have ht : m.Tracks spills (m.pushAll spills).finish := hm.tracks_ran spills true
  have hc : (m.pushAll spills).finish.Coherent := hm.coherent_ran spills true
  obtain ⟨houtput, hbuffered⟩ := hm.nothing_left spills
  rw [← ht.census hc, houtput, hbuffered]
  rfl

/-- The sink after a run was told what was handed over, and at the end it was flushed after that. -/
theorem Fresh.sink_ran (hm : m.Fresh) (spills : List Spill) (finished : Bool) :
    let told := ((m.ran spills finished).handedSince m).foldl Sink.add m.sink
    (m.ran spills finished).sink = (if finished then told.flush else told) ∧
      (m.ran spills finished).report.spillsOut =
        ((m.ran spills finished).handedSince m).length := by
  have hc := hm.coherent.pushAll spills
  have hp : m.Told (m.pushAll spills) := (told_refl m).pushAll hm.coherent spills
  have hzero : m.report.spillsOut = 0 := by rw [hm.report_eq]
  cases finished with
  | false =>
    obtain ⟨hsink, hout⟩ := hp.sink_eq
    rw [hzero, Nat.zero_add] at hout
    exact ⟨hsink, hout⟩
  | true =>
    have hx := (hm.logged_pushAll spills).exhaust_eq (hm.tracks_pushAll spills) hc
    have hw : m.Told (m.pushAll spills).exhaust := hx ▸ hp.wound hc
    obtain ⟨hsink, hout⟩ := hw.sink_eq
    rw [hzero, Nat.zero_add] at hout
    exact ⟨congrArg Sink.flush hsink, hout⟩

/-- What a sink holds after a run that began with it empty. -/
theorem Fresh.holds_ran (hm : m.Fresh) (hsink : m.sink = .empty) (spills : List Spill)
    (finished : Bool) :
    (m.ran spills finished).sink.Holds ((m.ran spills finished).handedSince m) := by
  obtain ⟨htold, -⟩ := hm.sink_ran spills finished
  have hadds := Sink.holds_foldl_add ((m.ran spills finished).handedSince m)
  rw [htold, hsink]
  cases finished with
  | false => exact hadds
  | true => exact hadds.flush

end

/-- With a sink that began empty, after every push and at the end: the report counts the spills that
were pushed, those that the sink was told of, and the hits in them, and archive and tally have the
same numbers. The tally has a count for exactly the channels of the hits that were handed over, and
it is the number of these hits. The hits that were handed over, those that wait for a delivery and
those that are buffered are together all that have arrived; in the end all have been handed over. -/
theorem accounts_agree {m : Merger} (hm : m.Fresh) (hsink : m.sink = .empty) (spills : List Spill)
    (finished : Bool) :
    let m' := m.ran spills finished
    let report := m'.report
    let sink := m'.sink
    report.spillsIn = spills.length ∧
    report.spillsOut = sink.calls.countP (·.isAdd) ∧ report.spillsOut = sink.tally.spills ∧
    report.eventsOut = sink.archive.hits.length ∧ report.eventsOut = sink.tally.total ∧
    report.eventsOut = sink.tally.counts.values.sum ∧
    (∀ c n, sink.tally.counts.get? c = some n ↔
      0 < n ∧ n = (Hit.onChannel c sink.archive.hits).length) ∧
    report.eventsOut + m'.output.length + m'.buffered = (m.arrivals spills).length ∧
    (finished = true → report.eventsOut = (m.arrivals spills).length) := by
  intro m' report sink
  have ht : m.Tracks spills m' := hm.tracks_ran spills finished
  have hholds : sink.Holds (m'.handedSince m) := hm.holds_ran hsink spills finished
  have hout : report.spillsOut = (m'.handedSince m).length := (hm.sink_ran spills finished).2
  have hevents : report.eventsOut = sink.archive.hits.length := by
    rw [hholds.hits_eq]
    exact ht.eventsOut_eq
  have hsum : report.eventsOut = sink.tally.counts.values.sum := by
    rw [hholds.sum_eq, hevents]
  have hcensus : report.eventsOut + m'.output.length + m'.buffered = (m.arrivals spills).length :=
    ht.census (hm.coherent_ran spills finished)
  refine ⟨ht.spillsIn_eq, ?_, ?_, hevents, hsum, hsum, hholds.count_iff, hcensus, ?_⟩
  · rw [hholds.adds_eq, hout]
  · rw [hholds.spills_eq, hout]
  · rintro rfl
    exact hm.eventsOut_finish spills

/-- Of six hits three are handed over, one waits for a delivery and two are buffered. -/
theorem accounts_agree_midway :
    let hits (t t' : UInt64) : List Hit := [⟨0, t, 7, .empty⟩, ⟨1, t', 9, .pileup⟩]
    let m := (new .empty).withChannels [0, 1]
    let spills : List Spill := [.events "left" (hits 1 2), .events "left" (hits 5 50),
      .raw "left" [1, 2], .events "right" (hits 7 60)]
    m.Fresh ∧ m.sink = .empty ∧
      (m.ran spills false).report.spillsOut = (m.ran spills false).sink.tally.spills ∧
      (m.ran spills false).report.eventsOut = (m.ran spills false).sink.archive.hits.length ∧
      (m.ran spills false).report.eventsOut + (m.ran spills false).output.length +
        (m.ran spills false).buffered = 6 ∧
      (m.ran spills false).sink.archive.hits.length = 3 ∧
      (m.ran spills false).output.length = 1 := by
  intro hits m spills
  have hm : m.Fresh := (fresh_new .empty).withChannels [0, 1]
  have harrivals : (m.arrivals spills).length = 6 := by decide
  obtain ⟨-, -, hspills, hevents, -, -, -, hcensus, -⟩ := accounts_agree hm rfl spills false
  rw [harrivals] at hcensus
  exact ⟨hm, rfl, hspills, hevents, hcensus, by decide +kernel, by decide +kernel⟩

end ListMode.Merger
