import ListMode.Proofs.Merger.Accounts

/-!
# Boundaries bracket a run

A run that pushes an opening boundary first and a closing boundary last, and no other run metadata,
hands them over first and last. The opening carries no hits, the closing the number of all hits, and
the sink is told nothing but the spills until it is flushed.
-/

namespace ListMode.Merger

/-- The sink has been told its spills and nothing else. -/
def Unflushed (m : Merger) : Prop := m.sink.calls = m.sink.archive.spills.map .add

section

variable {m : Merger}

/-- The end flushes the sink once, after the last spill. -/
theorem Fresh.calls_finish (hm : m.Fresh) (h : m.Unflushed) (spills : List Spill) :
    (m.pushAll spills).finish.sink.calls =
      (m.pushAll spills).finish.sink.archive.spills.map .add ++ [.flush] := by
  obtain ⟨hsink, -⟩ := hm.sink_ran spills true
  have htold : (m.pushAll spills).finish.sink =
      (((m.pushAll spills).finish.handedSince m).foldl Sink.add m.sink).flush := hsink
  rw [htold, Sink.foldl_add]
  show m.sink.calls ++ _ ++ _ = (m.sink.archive.spills ++ _).map Sink.Call.add ++ _
  rw [h, List.map_append]

/-- The report of the end counts what was pushed and what was handed over. -/
theorem Fresh.report_finish (hm : m.Fresh) (spills : List Spill) :
    (m.pushAll spills).finish.report.spillsIn = spills.length ∧
    (m.pushAll spills).finish.report.eventsOut =
      ((m.pushAll spills).finish.deliveredSince m).length := by
  have ht : m.Tracks spills (m.pushAll spills).finish := hm.tracks_ran spills true
  exact ⟨ht.spillsIn_eq, ht.eventsOut_eq⟩

/-- A first spill without hits leaves at once, without hits. -/
theorem Fresh.history_singleton (hm : m.Fresh) {s : Spill} (hs : m.decoded s = []) :
    ∃ d, m.history [s] = [d] ∧ d.seq = 0 ∧ d.parcel.hits = [] := by
  have hl := hm.logged_pushAll [s]
  have ht := hm.tracks_pushAll [s]
  have hcm := (hm.coherent.receive s).merge
  have htm := (hm.tracks.receive s).merge (hm.coherent.receive s)
  have hnone : m.arrivals [s] = [] := by simp [arrivals, hs]
  have hlane : ∀ c, (m.receive s).merge.lane c = [] := by
    intro c
    have hf := htm.fifo c
    rw [List.nil_append, hnone, Hit.onChannel_nil, List.append_eq_nil_iff] at hf
    exact List.map_eq_nil_iff.mp hf.2
  have hgone : (m.pushAll [s]).inFlight.keys = [] := inFlight_drain hcm hlane
  have hseq : ∀ d ∈ m.history [s], d.seq = 0 := by
    intro d hd
    obtain ⟨_, t, ht⟩ := hl.mem_log hd
    have := (List.getElem?_eq_some_iff.mp ht.spill_eq).1
    rw [List.length_singleton] at this
    omega
  have hfirst : 0 ∈ (m.history [s]).map (·.seq) := hl.left hgone (by simp)
  have hhits : Departure.hits (m.history [s]) = [] := by
    rw [← hl.deliveredSince_eq]
    refine List.eq_nil_iff_forall_not_mem.mpr fun h hh => ?_
    have hf := ht.fifo h.channel
    rw [hnone, Hit.onChannel_nil, List.append_eq_nil_iff, emittedSince, Hit.onChannel_append,
      List.append_eq_nil_iff] at hf
    have hmem := Hit.mem_onChannel.mpr ⟨hh, rfl⟩
    rw [hf.1.1] at hmem
    cases hmem
  cases hlog : m.history [s] with
  | nil =>
    rw [hlog] at hfirst
    cases hfirst
  | cons d rest =>
    cases rest with
    | nil =>
      rw [hlog] at hseq hhits
      refine ⟨d, rfl, hseq d (by simp), ?_⟩
      simpa [Departure.hits] using hhits
    | cons d' rest =>
      -- Two departures would have one number.
      have hn := hl.nodup
      rw [hlog] at hseq hn
      simp [hseq d (by simp), hseq d' (by simp)] at hn

/-- A boundary that is pushed last leaves last. -/
theorem Logged.ends_with_boundary {m₀ : Merger} {past : List Spill} {log : List Departure}
    {s : Spill} (h : m₀.Logged (past ++ [s]) log m) (hgone : m.inFlight.keys = [])
    (hrun : s.run.isSome = true) :
    ∃ before d, log = before ++ [d] ∧ d.seq = past.length ∧
      m₀.Departs (past ++ [s]) before d s := by
  have hleft : past.length ∈ log.map (·.seq) := h.left hgone (by simp)
  obtain ⟨d, hd, hseq⟩ := List.mem_map.mp hleft
  obtain ⟨before, after, hlog⟩ := List.append_of_mem hd
  obtain ⟨t, ht⟩ := h.departs before d after hlog
  have hts : t = s := by
    have := ht.spill_eq
    rw [hseq, List.getElem?_concat_length] at this
    exact (Option.some.inj this).symm
  subst hts
  have hnodup := h.nodup
  rw [hlog, List.map_append, List.map_cons, List.nodup_append, List.nodup_cons] at hnodup
  obtain ⟨-, ⟨hnot, -⟩, hdisjoint⟩ := hnodup
  have hafter : after = [] := by
    refine List.eq_nil_iff_forall_not_mem.mpr fun d' hd' => ?_
    have hmem' : d'.seq ∈ after.map (·.seq) := List.mem_map.mpr ⟨d', hd', rfl⟩
    obtain ⟨b, a, rfl⟩ := List.append_of_mem hd'
    obtain ⟨s', hs'⟩ := h.departs (before ++ d :: b) d' a (by rw [hlog]; simp)
    have hlt := (List.getElem?_eq_some_iff.mp hs'.spill_eq).1
    rw [List.length_append, List.length_singleton] at hlt
    have hne : d'.seq ≠ d.seq := fun he => hnot (he ▸ hmem')
    have hmem := ht.older d'.seq s' (by omega) hs'.spill_eq (.inl hrun)
    exact hdisjoint _ hmem _ (List.mem_cons_of_mem _ hmem') rfl
  subst hafter
  exact ⟨before, d, hlog, hseq, ht⟩

/-- A list that begins and ends with different entries. -/
theorem exists_middle {α : Type} {l before : List α} {first last : α} (hfirst : [first] <+: l)
    (hlast : l = before ++ [last]) (hne : first ≠ last) :
    ∃ middle, l = first :: middle ++ [last] := by
  obtain ⟨rest, rfl⟩ := hfirst
  cases before with
  | nil => exact absurd (List.cons.inj hlast).1 hne
  | cons x middle =>
    obtain ⟨rfl, -⟩ := List.cons.inj hlast
    exact ⟨middle, hlast⟩

/-- What leaves between the first and the last spill is one of the others. -/
theorem Logged.run_middle {m₀ : Merger} {opening closing : Spill} {mid : List Spill}
    {first last : Departure} {middle : List Departure}
    (h : m₀.Logged (opening :: mid ++ [closing]) (first :: middle ++ [last]) m)
    (hfirst : first.seq = 0) (hlast : last.seq = (opening :: mid).length)
    (hmid : ∀ s ∈ mid, s.run = none) : ∀ d ∈ middle, d.parcel.run = none := by
  intro d hd
  have hmem : d.seq ∈ middle.map (·.seq) := List.mem_map.mpr ⟨d, hd, rfl⟩
  have hnodup := h.nodup
  rw [List.map_append, List.map_cons, List.map_singleton, hfirst, hlast,
    List.nodup_append] at hnodup
  obtain ⟨hnodup, -, hdisjoint⟩ := hnodup
  have hne : d.seq ≠ 0 := fun h => (List.nodup_cons.mp hnodup).1 (h ▸ hmem)
  have hne' : d.seq ≠ (opening :: mid).length :=
    fun h => hdisjoint _ (List.mem_cons_of_mem _ hmem) _ (by simp) h
  obtain ⟨before, after, rfl⟩ := List.append_of_mem hd
  obtain ⟨s, hs⟩ := h.departs (first :: before) d (after ++ [last]) (by simp)
  have hget := hs.spill_eq
  have hlt := (List.getElem?_eq_some_iff.mp hget).1
  rw [List.length_append, List.length_singleton] at hlt
  obtain ⟨k, hk⟩ := Nat.exists_eq_succ_of_ne_zero hne
  rw [List.getElem?_append_left (by omega), hk, Nat.succ_eq_add_one,
    List.getElem?_cons_succ] at hget
  have hsm : s ∈ mid := List.mem_of_getElem? hget
  rw [hs.parcel_eq]
  simp [hmid s hsm]

theorem not_isEmpty_of_run {s : Spill} {run : RunInfo} (h : s.run = some run) :
    (!s.isEmpty) = true := by
  simp [Spill.isEmpty, h]

/-- Boundaries that leave first and last are handed over first and last. -/
theorem Logged.handed_ends {m₀ : Merger} {past : List Spill} {first last : Departure}
    {middle : List Departure} {opening closing : RunInfo}
    (h : m₀.Logged past (first :: middle ++ [last]) m) (hfirst : first.parcel.run = some opening)
    (hlast : last.parcel.run = some closing) :
    m.handedSince m₀ =
      first.parcel :: (middle.map (·.parcel)).filter (!·.isEmpty) ++ [last.parcel] := by
  rw [h.handed_eq, List.map_append, List.map_cons, List.map_singleton, List.filter_append,
    List.filter_cons_of_pos (by simpa using not_isEmpty_of_run hfirst),
    List.filter_cons_of_pos (by simpa using not_isEmpty_of_run hlast), List.filter_nil]

end

/-- What a run hands over that is bracketed by boundaries. -/
theorem Fresh.bracket {m : Merger} (hm : m.Fresh) {opening closing : RunInfo} {mid : List Spill}
    (ho : opening.isClosing = false) (hc : closing.isClosing = true)
    (hmid : ∀ s ∈ mid, s.run = none) :
    ∃ first middle last,
      (m.pushAll (.boundary opening :: mid ++ [.boundary closing])).finish.handedSince m =
        first :: middle ++ [last] ∧
      first.hits = [] ∧ first.run = some opening ∧ (∀ s ∈ middle, s.run = none) ∧
      last.run = some { closing with
        totalEvents := ((first :: middle ++ [last]).flatMap Spill.hits).length } := by
  have hl := hm.logged_ran (.boundary opening :: mid ++ [.boundary closing]) true
  have hgone := hm.inFlight_ran (.boundary opening :: mid ++ [.boundary closing])
  -- The opening leaves with its push, the closing after everything else.
  obtain ⟨first, hsingle, hseq₀, hhits₀⟩ := hm.history_singleton (s := .boundary opening) rfl
  have hfirst : [first] <+: m.log (.boundary opening :: mid ++ [.boundary closing]) true := by
    rw [log, List.cons_append, history_cons, hsingle, List.append_assoc]
    exact List.prefix_append _ _
  obtain ⟨before, last, hlog, hseq, hlast⟩ := hl.ends_with_boundary hgone rfl
  have hne : first ≠ last := by
    rintro rfl
    rw [hseq₀, List.length_cons] at hseq
    omega
  obtain ⟨middle, hends⟩ := exists_middle hfirst hlog hne
  obtain rfl : before = first :: middle := List.append_cancel_right (hlog.symm.trans hends)
  rw [hlog] at hl
  obtain ⟨s₀, hs₀⟩ := hl.departs [] first (middle ++ [last]) rfl
  have hrun₀ : first.parcel.run = some opening := by
    have hs : s₀ = .boundary opening := by
      have := hs₀.spill_eq
      rw [hseq₀] at this
      exact (Option.some.inj this).symm
    rw [hs₀.parcel_eq, hs]
    simp [Spill.boundary, stamp, ho]
  have hrun : last.parcel.run = some { closing with
      totalEvents := (Departure.hits (first :: middle ++ [last])).length } := by
    rw [hlast.parcel_eq]
    simp [Spill.boundary, stamp, hc]
  have hhanded := hl.handed_ends hrun₀ hrun
  have hhits := hl.deliveredSince_eq
  refine ⟨first.parcel, _, last.parcel, hhanded, hhits₀, hrun₀, ?_, ?_⟩
  · intro s hs
    obtain ⟨d, hd, rfl⟩ := List.mem_map.mp (List.mem_filter.mp hs).1
    exact hl.run_middle hseq₀ hseq hmid d hd
  · rw [hrun, ← hhits, ← hhanded]
    rfl

/-- What the sink of such a run is told until it is flushed, and what the report says. -/
theorem Fresh.told {m : Merger} (hm : m.Fresh) (hsink : m.sink = .empty) {opening closing : RunInfo}
    {mid : List Spill} (ho : opening.isClosing = false) (hc : closing.isClosing = true)
    (hmid : ∀ s ∈ mid, s.run = none) :
    let m' := (m.pushAll (.boundary opening :: mid ++ [.boundary closing])).finish
    ∃ first middle last,
      m'.sink.calls = (first :: middle ++ [last]).map .add ++ [.flush] ∧
      first.hits = [] ∧ first.run = some opening ∧ (∀ s ∈ middle, s.run = none) ∧
      last.run = some { closing with totalEvents := m'.report.eventsOut } ∧
      m'.report.eventsOut = ((first :: middle ++ [last]).flatMap Spill.hits).length ∧
      m'.report.spillsIn = mid.length + 2 := by
  intro m'
  obtain ⟨first, middle, last, hhanded, hhits, hfirst, hmiddle, hlast⟩ := hm.bracket ho hc hmid
  obtain ⟨hin, hout⟩ := hm.report_finish (.boundary opening :: mid ++ [.boundary closing])
  have hevents : m'.report.eventsOut = ((first :: middle ++ [last]).flatMap Spill.hits).length := by
    rw [hout, deliveredSince, hhanded]
  have hunflushed : m.Unflushed := by
    unfold Unflushed
    rw [hsink]
    rfl
  have hspills : m'.sink.archive.spills = first :: middle ++ [last] := by
    rw [← hhanded, handedSince, hsink]
    rfl
  refine ⟨first, middle, last, ?_, hhits, hfirst, hmiddle, ?_, hevents, ?_⟩
  · rw [← hspills]
    exact hm.calls_finish hunflushed _
  · rw [hlast, hevents]
  · rw [hin]
    simp

end ListMode.Merger
