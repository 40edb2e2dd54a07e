import ListMode.Proofs.Merger.DrainOrder
import ListMode.Proofs.Merger.Interchange

/-!
# What a sink has received

A merger that began fresh hands to its sink nothing but what was pushed: on each channel a first part
of the hits and of the statistics, and all of them once it is exhausted.
-/

namespace ListMode

/-- On each channel the sink has received a first part of the hits and of the statistics of `made`,
and all of them if `complete`. -/
structure Sink.Receives (k : Sink) (made : List Spill) (complete : Bool) : Prop where
  hits : ∀ c, Hit.onChannel c k.archive.hits <+: Hit.onChannel c (made.flatMap Spill.hits)
  stats : ∀ c, k.archive.spills.filterMap (Merger.statsOn c) <+: made.filterMap (Merger.statsOn c)
  all_hits : complete = true → ∀ c,
    Hit.onChannel c k.archive.hits = Hit.onChannel c (made.flatMap Spill.hits)
  all_stats : complete = true → ∀ c,
    k.archive.spills.filterMap (Merger.statsOn c) = made.filterMap (Merger.statsOn c)

namespace Sink.Receives

variable {k k' : Sink} {made more : List Spill} {complete : Bool}

theorem empty (made : List Spill) : Sink.empty.Receives made false :=
  ⟨fun _ => List.nil_prefix, fun _ => List.nil_prefix, nofun, nofun⟩

theorem nothing (complete : Bool) : Sink.empty.Receives [] complete :=
  ⟨fun _ => List.prefix_rfl, fun _ => List.prefix_rfl, fun _ _ => rfl, fun _ _ => rfl⟩

theorem partly (h : k.Receives made complete) : k.Receives made false :=
  ⟨h.hits, h.stats, nofun, nofun⟩

theorem append (h : k.Receives made complete) (more : List Spill) :
    k.Receives (made ++ more) false := by
  refine ⟨fun c => ?_, fun c => ?_, nofun, nofun⟩
  · rw [List.flatMap_append, Hit.onChannel_append]
    exact (h.hits c).trans (List.prefix_append _ _)
  · rw [List.filterMap_append]
    exact (h.stats c).trans (List.prefix_append _ _)

theorem of_spills_eq (h : k.Receives made complete)
    (hk : k'.archive.spills = k.archive.spills) : k'.Receives made complete := by
  have hhits : k'.archive.hits = k.archive.hits := by rw [Archive.hits, Archive.hits, hk]
  refine ⟨fun c => ?_, fun c => ?_, fun hc c => ?_, fun hc c => ?_⟩
  · rw [hhits]
    exact h.hits c
  · rw [hk]
    exact h.stats c
  · rw [hhits]
    exact h.all_hits hc c
  · rw [hk]
    exact h.all_stats hc c

/-- The same hits and statistics, spread over other spills. -/
theorem of_same (h : k.Receives made complete)
    (hhits : more.flatMap Spill.hits = made.flatMap Spill.hits)
    (hstats : ∀ c, more.filterMap (Merger.statsOn c) = made.filterMap (Merger.statsOn c)) :
    k.Receives more complete := by
  refine ⟨fun c => ?_, fun c => ?_, fun hc c => ?_, fun hc c => ?_⟩
  · rw [hhits]
    exact h.hits c
  · rw [hstats]
    exact h.stats c
  · rw [hhits]
    exact h.all_hits hc c
  · rw [hstats]
    exact h.all_stats hc c

end Sink.Receives

namespace Merger

section

variable {m : Merger} {sources : List String}

theorem ReadsRecords.arrivals_eq (h : m.ReadsRecords sources) (spills : List Spill) :
    m.arrivals spills = (spills.map (·.decodedFrom sources)).flatMap Spill.hits := by
  rw [arrivals, List.flatMap_map]
  refine congrArg (List.flatMap · spills) (funext fun s => ?_)
  exact congrArg Prod.fst (h.decode_eq s)

theorem statsOn_decodedFrom (spills : List Spill) (c : Channel) :
    (spills.map (·.decodedFrom sources)).filterMap (statsOn c) = spills.filterMap (statsOn c) := by
  rw [List.filterMap_map]
  refine congrArg (List.filterMap · spills) (funext fun s => ?_)
  rw [Function.comp_apply, statsOn, stats_decodedFrom]
  rfl

/-- What the sink of a merger has received that began fresh with an empty sink. -/
theorem Fresh.receives_ran (hm : m.Fresh) (hsink : m.sink = .empty) (hr : m.ReadsRecords sources)
    (spills : List Spill) (finished : Bool) :
    (m.ran spills finished).sink.Receives (spills.map (·.decodedFrom sources)) finished := by
  have hl := hm.logged_ran spills finished
  have ht := hm.tracks_pushAll spills
  have hc := hm.coherent.pushAll spills
  have hspills : (m.ran spills finished).handedSince m =
      (m.ran spills finished).sink.archive.spills := by
    rw [handedSince, hsink]
    rfl
  have hhits : (m.ran spills finished).deliveredSince m =
      (m.ran spills finished).sink.archive.hits := by
    rw [deliveredSince, hspills, Archive.hits]
  have hall : finished = true → ∀ c, Hit.onChannel c ((m.ran spills finished).deliveredSince m) =
      Hit.onChannel c (m.arrivals spills) := by
    rintro rfl c
    exact ht.onChannel_finish hc c
  refine ⟨fun c => ?_, fun c => ?_, fun hf c => ?_, fun hf c => ?_⟩
  · rw [← hr.arrivals_eq, ← hhits]
    cases finished with
    | true => exact ⟨[], (List.append_nil _).trans (hall rfl c)⟩
    | false =>
      have hfifo := ht.fifo c
      rw [emittedSince, Hit.onChannel_append, List.append_assoc] at hfifo
      exact ⟨_, hfifo⟩
  · rw [statsOn_decodedFrom, ← hspills]
    exact hl.stats_initial c
  · rw [← hr.arrivals_eq, ← hhits]
    exact hall hf c
  · subst hf
    rw [statsOn_decodedFrom, ← hspills]
    exact hl.stats_all (hm.inFlight_ran spills) c

/-- The boundaries of a run have neither hits nor statistics. -/
theorem receives_inside {k : Sink} {opening : RunInfo} {made : List Spill} {complete : Bool}
    {closings : List RunInfo}
    (h : k.Receives ((Spill.boundary opening :: made ++ closings.map Spill.boundary).map
      (·.decodedFrom sources)) complete) :
    k.Receives (made.map (·.decodedFrom sources)) complete := by
  have hhits : ∀ run, ((Spill.boundary run).decodedFrom sources).hits = [] := fun _ => rfl
  have hstats : ∀ c run, statsOn c ((Spill.boundary run).decodedFrom sources) = none :=
    fun _ _ => rfl
  refine h.of_same ?_ fun c => ?_
  · simp [hhits, List.flatMap_map]
  · simp [hstats, List.filterMap_map, Function.comp_def]

end

end Merger

end ListMode
