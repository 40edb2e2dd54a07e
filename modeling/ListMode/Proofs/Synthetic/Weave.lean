import Mathlib.Algebra.BigOperators.Group.List.Basic
import Mathlib.Algebra.GroupWithZero.Nat
import Mathlib.Data.List.Nodup
import ListMode.Proofs.Synthetic.Flow

/-!
# The spills of several digitizers in one merge

The spills of several acquisitions arrive interleaved in any way, between the boundaries of a run.
No two digitizers read one channel, so what a channel delivers is what its digitizer handed over for
it. Hence the merger is promised what it needs, decodes every buffer, and hands over the hits that
were generated, and the statistics that say a channel has stopped count its hits.
-/

namespace ListMode.Synthetic

/-! ## Parts of a list -/

section

variable {α β : Type} {p : α → Bool} {l : List α}

theorem filterMap_filter_eq {f : α → Option β} (h : ∀ x ∈ l, p x = false → f x = none) :
    (l.filter p).filterMap f = l.filterMap f := by
  rw [List.filterMap_filter]
  refine List.filterMap_congr fun x hx => ?_
  cases hp : p x with
  | true => exact if_pos rfl
  | false => rw [h x hx hp]; exact if_neg Bool.false_ne_true

end

/-- Hits counted channel by channel are all hits. -/
theorem sum_length_onChannel {channels : List Channel} (hn : channels.Nodup) {hits : List Hit}
    (h : ∀ x ∈ hits, x.channel ∈ channels) :
    (channels.map fun c => (Hit.onChannel c hits).length).sum = hits.length := by
  induction channels generalizing hits with
  | nil =>
    rw [List.eq_nil_iff_forall_not_mem.mpr fun x hx => nomatch h x hx]
    rfl
  | cons c rest ih =>
    obtain ⟨hnot, hrest⟩ := List.nodup_cons.mp hn
    have hothers : (rest.map fun c' =>
        (Hit.onChannel c' (hits.filter fun x => !decide (x.channel = c))).length).sum =
        (hits.filter fun x => !decide (x.channel = c)).length := by
      refine ih hrest fun x hx => ?_
      obtain ⟨hx, hne⟩ := List.mem_filter.mp hx
      exact (List.mem_cons.mp (h x hx)).resolve_left (by simpa using hne)
    have hsame : ∀ c' ∈ rest, Hit.onChannel c' (hits.filter fun x => !decide (x.channel = c)) =
        Hit.onChannel c' hits := by
      intro c' hc'
      unfold Hit.onChannel
      rw [List.filter_filter]
      refine List.filter_congr fun x _ => ?_
      by_cases hx : x.channel = c'
      · have hne : c' ≠ c := fun he => hnot (he ▸ hc')
        rw [hx, decide_eq_false hne, Bool.not_false, Bool.and_true]
      · rw [decide_eq_false hx, Bool.false_and]
    have hmap : rest.map (fun c' => (Hit.onChannel c' hits).length) = rest.map fun c' =>
        (Hit.onChannel c' (hits.filter fun x => !decide (x.channel = c))).length :=
      List.map_congr_left fun c' hc' => by rw [hsame c' hc']
    rw [List.map_cons, List.sum_cons, hmap, hothers]
    exact (List.length_eq_length_filter_add fun x : Hit => decide (x.channel = c)).symm

/-! ## Strands -/

/-- A digitizer that takes part in a run. -/
structure Member where
  id : String
  config : Config

/-- The spills of digitizer `id`. -/
def strand (id : String) (spills : List Spill) : List Spill :=
  spills.filter fun s => decide (s.source = some id)

/-- The readouts of digitizer `id`. -/
def readsOf (id : String) (reads : List Acquisition) : List Acquisition :=
  reads.filter fun a => decide (a.id = id)

/-- What reaches the merger `m` are the spills of `members`, interleaved, and boundaries. -/
structure Woven (m : Merger) (members : List Member) (spills : List Spill)
    (reads : List Acquisition) : Prop where
  owner : ∀ p ∈ members, ∀ q ∈ members, ∀ c ∈ p.config.channels, c ∈ q.config.channels →
    p.id = q.id
  decoder : ∀ p ∈ members, p.config.rawOutput = true → m.decoders.get? p.id = some Record.decoder
  ends : ∀ p ∈ members, Over p.id p.config (strand p.id spills) (readsOf p.id reads)
  stem : ∀ s ∈ spills, (∃ p ∈ members, s.source = some p.id) ∨ s.payload = .events [] ∧ s.stats = ∅
  reads_stem : ∀ a ∈ reads, ∃ p ∈ members, a.id = p.id

section

variable {m : Merger} {members : List Member} {spills : List Spill} {reads : List Acquisition}
  {p : Member} {s : Spill} {c : Channel}

theorem mem_strand {id : String} : s ∈ strand id spills ↔ s ∈ spills ∧ s.source = some id := by
  simp [strand]

/-- A hit in a spill comes from a digitizer that reads its channel. -/
theorem Woven.content_stem (h : Woven m members spills reads) (hs : s ∈ spills) {x : Hit}
    (hx : x ∈ s.content) : ∃ p ∈ members, s.source = some p.id ∧ x.channel ∈ p.config.channels := by
  rcases h.stem s hs with ⟨p, hp, hsource⟩ | ⟨hpayload, -⟩
  · refine ⟨p, hp, hsource, (h.ends p hp).channel_mem x ?_⟩
    rw [← (h.ends p hp).content_eq]
    exact List.mem_flatMap.mpr ⟨s, mem_strand.mpr ⟨hs, hsource⟩, hx⟩
  · unfold Spill.content at hx
    rw [hpayload] at hx
    nomatch hx

/-- So do statistics in a spill. -/
theorem Woven.stats_stem (h : Woven m members spills reads) (hs : s ∈ spills) {x : Snapshot Float}
    (hx : s.stats.get? c = some x) :
    x.channel = c ∧ ∃ p ∈ members, s.source = some p.id ∧ c ∈ p.config.channels := by
  rcases h.stem s hs with ⟨p, hp, hsource⟩ | ⟨-, hstats⟩
  · obtain ⟨hchannel, hc⟩ := (h.ends p hp).stats s (mem_strand.mpr ⟨hs, hsource⟩) c x hx
    exact ⟨hchannel, p, hp, hsource, hc⟩
  · rw [hstats] at hx
    nomatch hx

/-- Every buffer is decoded. -/
theorem Woven.decode (h : Woven m members spills reads) (hs : s ∈ spills) :
    m.decode s = (s.content, 0) := by
  unfold Merger.decode Spill.content
  cases hpayload : s.payload with
  | events hits => rfl
  | raw buffer =>
    rcases h.stem s hs with ⟨p, hp, hsource⟩ | ⟨hevents, -⟩
    · obtain ⟨hraw, hsome⟩ :=
        (h.ends p hp).readable s (mem_strand.mpr ⟨hs, hsource⟩) buffer hpayload
      obtain ⟨hits, hhits⟩ := Option.isSome_iff_exists.mp hsome
      have hdecode : Record.decoder.decode? buffer = some hits := hhits
      simp only [hsource, Option.getD_some, h.decoder p hp hraw, Option.bind_some, hdecode, hhits]
    · rw [hpayload] at hevents
      nomatch hevents

theorem Woven.arrivals (h : Woven m members spills reads) :
    m.arrivals spills = spills.flatMap Spill.content :=
  List.flatMap_congr fun _ hs => congrArg Prod.fst (h.decode hs)

/-- The hits of a channel are those of its digitizer. -/
theorem Woven.onChannel_strand (h : Woven m members spills reads) (hp : p ∈ members)
    (hc : c ∈ p.config.channels) :
    Hit.onChannel c (m.arrivals spills) = Hit.onChannel c (generated (readsOf p.id reads)) := by
  have hpart : (strand p.id spills).flatMap (fun s => Hit.onChannel c s.content) =
      spills.flatMap fun s => Hit.onChannel c s.content := by
    refine KeyMap.flatMap_filter_eq fun _ hs hne => List.filter_eq_nil_iff.mpr fun x hx hxc => ?_
    obtain ⟨q, hq, hsource, hmem⟩ := h.content_stem hs hx
    rw [of_decide_eq_true hxc] at hmem
    rw [hsource, h.owner p hp q hq c hc hmem, decide_eq_true rfl] at hne
    nomatch hne
  rw [h.arrivals, ← (h.ends p hp).content_eq]
  unfold Hit.onChannel at hpart ⊢
  rw [List.filter_flatMap, List.filter_flatMap]
  exact hpart.symm

theorem Woven.onChannel_reads (h : Woven m members spills reads) (hp : p ∈ members)
    (hc : c ∈ p.config.channels) :
    Hit.onChannel c (generated (readsOf p.id reads)) = Hit.onChannel c (generated reads) := by
  unfold generated Hit.onChannel
  rw [List.filter_flatMap, List.filter_flatMap]
  refine KeyMap.flatMap_filter_eq fun a ha hne => List.filter_eq_nil_iff.mpr fun x hx hxc => ?_
  obtain ⟨q, hq, hid⟩ := h.reads_stem a ha
  have hmem := (h.ends q hq).channel_mem x (List.mem_flatMap.mpr
    ⟨a, List.mem_filter.mpr ⟨ha, decide_eq_true hid⟩, hx⟩)
  rw [of_decide_eq_true hxc] at hmem
  rw [hid, h.owner p hp q hq c hc hmem, decide_eq_true rfl] at hne
  nomatch hne

/-- Nothing arrives on a channel that nobody reads, and nothing was generated for it. -/
theorem Woven.onChannel_foreign (h : Woven m members spills reads)
    (hc : ∀ p ∈ members, c ∉ p.config.channels) :
    Hit.onChannel c (m.arrivals spills) = [] ∧ Hit.onChannel c (generated reads) = [] := by
  constructor
  · refine List.filter_eq_nil_iff.mpr fun x hx hxc => ?_
    rw [h.arrivals] at hx
    obtain ⟨s, hs, hx⟩ := List.mem_flatMap.mp hx
    obtain ⟨p, hp, -, hmem⟩ := h.content_stem hs hx
    exact hc p hp (of_decide_eq_true hxc ▸ hmem)
  · refine List.filter_eq_nil_iff.mpr fun x hx hxc => ?_
    obtain ⟨a, ha, hx⟩ := List.mem_flatMap.mp hx
    obtain ⟨p, hp, hid⟩ := h.reads_stem a ha
    have hmem := (h.ends p hp).channel_mem x (List.mem_flatMap.mpr
      ⟨a, List.mem_filter.mpr ⟨ha, decide_eq_true hid⟩, hx⟩)
    exact hc p hp (of_decide_eq_true hxc ▸ hmem)

/-- What arrives on a channel is what was generated for it, in time order. -/
theorem Woven.onChannel_arrivals (h : Woven m members spills reads) (c : Channel) :
    Hit.onChannel c (m.arrivals spills) = Hit.onChannel c (generated reads) ∧
      (Hit.onChannel c (m.arrivals spills)).Pairwise (·.timestamp ≤ ·.timestamp) := by
  by_cases hc : ∃ p ∈ members, c ∈ p.config.channels
  · obtain ⟨p, hp, hc⟩ := hc
    refine ⟨(h.onChannel_strand hp hc).trans (h.onChannel_reads hp hc), ?_⟩
    rw [h.onChannel_strand hp hc]
    exact (h.ends p hp).ordered c
  · obtain ⟨harrived, hgenerated⟩ := h.onChannel_foreign fun p hp hmem => hc ⟨p, hp, hmem⟩
    rw [harrived, hgenerated]
    exact ⟨rfl, .nil⟩

/-- A merger that waits for the channels of all members is promised what it needs. -/
theorem Woven.promised (h : Woven m members spills reads) {channels : List Channel}
    (hall : ∀ p ∈ members, ∀ c ∈ p.config.channels, c ∈ channels) :
    m.Promised channels spills := by
  refine ⟨fun x hx => ?_, fun c => (h.onChannel_arrivals c).2, ?_⟩
  · rw [h.arrivals] at hx
    obtain ⟨s, hs, hx⟩ := List.mem_flatMap.mp hx
    obtain ⟨p, hp, -, hmem⟩ := h.content_stem hs hx
    exact hall p hp _ hmem
  · rw [List.pairwise_iff_getElem]
    intro i j hi hj hij x hx
    have hdecoded : m.decoded spills[j] = spills[j].content :=
      congrArg Prod.fst (h.decode (List.getElem_mem hj))
    rw [hdecoded] at hx
    unfold Merger.stops
    cases hstats : spills[i].stats.get? x.channel with
    | none => rfl
    | some y =>
      -- Both spills come from the digitizer that reads the channel.
      obtain ⟨-, p, hp, hsource, hmem⟩ := h.stats_stem (List.getElem_mem hi) hstats
      obtain ⟨q, hq, hlater, hmem'⟩ := h.content_stem (List.getElem_mem hj) hx
      rw [← h.owner p hp q hq _ hmem hmem'] at hlater
      have hfinal := List.pairwise_iff_getElem.mp (List.pairwise_filter.mp (h.ends p hp).final)
      have hgoing := hfinal i j hi hj hij (decide_eq_true hsource) (decide_eq_true hlater) x hx
      unfold Merger.stops at hgoing
      rwa [hstats] at hgoing

/-! ## Stopped channels -/

/-- Statistics of channel `c` that say it has stopped. -/
def stopsOn (c : Channel) (spills : List Spill) : List (Snapshot Float) :=
  (spills.filterMap (Merger.statsOn c)).filter (·.isStop)

/-- Statistics that say their channel has stopped. -/
def stopped (spills : List Spill) : List (Snapshot Float) :=
  spills.flatMap fun s => s.stats.values.filter (·.isStop)

/-- A channel stops at most once, and its statistics then count its hits. It has stopped if it has
hits and no readout has crashed. -/
theorem Woven.stops_once (h : Woven m members spills reads) (c : Channel) :
    (∃ x, stopsOn c spills = [x] ∧
      x.counter? Snapshot.triggerCount = some (Hit.onChannel c (generated reads)).length.toFloat) ∨
    stopsOn c spills = [] ∧ (Hit.onChannel c (generated reads) = [] ∨
      ∃ a ∈ reads, a.draw? = none) := by
  by_cases hc : ∃ p ∈ members, c ∈ p.config.channels
  · obtain ⟨p, hp, hc⟩ := hc
    have hstrand : (strand p.id spills).filterMap (Merger.statsOn c) =
        spills.filterMap (Merger.statsOn c) := by
      refine filterMap_filter_eq fun s hs hne => ?_
      cases hstats : Merger.statsOn c s with
      | none => rfl
      | some x =>
        obtain ⟨-, q, hq, hsource, hmem⟩ := h.stats_stem hs hstats
        rw [hsource, h.owner p hp q hq c hc hmem, decide_eq_true rfl] at hne
        nomatch hne
    unfold stopsOn
    rw [← hstrand, ← h.onChannel_reads hp hc]
    rcases (h.ends p hp).ended with hcomplete | ⟨hgoing, hcrash⟩
    · exact .inl (hcomplete c hc)
    · refine .inr ⟨filter_isStop_eq_nil fun s hs => hgoing s hs c, ?_⟩
      rcases hcrash with hnil | ⟨a, ha, hnone⟩
      · rw [hnil]
        exact .inl rfl
      · exact .inr ⟨a, (List.mem_filter.mp ha).1, hnone⟩
  · have hforeign : ∀ p ∈ members, c ∉ p.config.channels := fun p hp hmem => hc ⟨p, hp, hmem⟩
    refine .inr ⟨List.filter_eq_nil_iff.mpr fun x hx _ => ?_, .inl (h.onChannel_foreign hforeign).2⟩
    obtain ⟨s, hs, hx⟩ := List.mem_filterMap.mp hx
    obtain ⟨-, p, hp, -, hmem⟩ := h.stats_stem hs hx
    exact hforeign p hp hmem

/-- Where statistics know their channel, those that say channel `c` has stopped are found by it. -/
theorem filter_stopped {spills : List Spill}
    (h : ∀ s ∈ spills, ∀ c x, s.stats.get? c = some x → x.channel = c) (c : Channel) :
    (stopped spills).filter (·.channel = c) = stopsOn c spills := by
  unfold stopped stopsOn
  rw [List.filter_flatMap, List.filterMap_eq_flatMap_toList, List.filter_flatMap]
  refine List.flatMap_congr fun s hs => ?_
  rw [List.filter_comm, KeyMap.filter_values (h s hs)]
  rfl

/-- Where no spill stops a channel, none that is handed over does. -/
theorem stopped_eq_nil (hm : m.Fresh) (h : ∀ s ∈ spills, ∀ c, Merger.stops s c = false) :
    stopped ((m.pushAll spills).finish.handedSince m) = [] := by
  refine List.eq_nil_iff_forall_not_mem.mpr fun x hx => ?_
  obtain ⟨s, hs, hx⟩ := List.mem_flatMap.mp hx
  obtain ⟨hx, hstop⟩ := List.mem_filter.mp hx
  obtain ⟨c, hc⟩ := KeyMap.mem_values_iff.mp hx
  have hstats : ((m.pushAll spills).finish.handedSince m).filterMap (Merger.statsOn c) =
      spills.filterMap (Merger.statsOn c) :=
    (hm.logged_ran spills true).stats_all (hm.inFlight_ran spills) c
  have hmem : x ∈ (((m.pushAll spills).finish.handedSince m).filterMap
      (Merger.statsOn c)).filter (·.isStop) :=
    List.mem_filter.mpr ⟨List.mem_filterMap.mpr ⟨s, hs, hc⟩, hstop⟩
  rw [hstats, filter_isStop_eq_nil fun s hs => h s hs c] at hmem
  nomatch hmem

/-- The statistics handed over that say a channel has stopped are those that were pushed. -/
theorem Woven.filter_handed (h : Woven m members spills reads) {m' : Merger} (hm : m'.Fresh)
    (c : Channel) : (stopped ((m'.pushAll spills).finish.handedSince m')).filter (·.channel = c) =
      stopsOn c spills := by
  have hstats : ∀ c, ((m'.pushAll spills).finish.handedSince m').filterMap (Merger.statsOn c) =
      spills.filterMap (Merger.statsOn c) :=
    (hm.logged_ran spills true).stats_all (hm.inFlight_ran spills)
  have hself : ∀ s ∈ (m'.pushAll spills).finish.handedSince m', ∀ c x, s.stats.get? c = some x →
      x.channel = c := by
    intro s hs c x hx
    have hmem : x ∈ ((m'.pushAll spills).finish.handedSince m').filterMap (Merger.statsOn c) :=
      List.mem_filterMap.mpr ⟨s, hs, hx⟩
    rw [hstats] at hmem
    obtain ⟨s', hs', hx'⟩ := List.mem_filterMap.mp hmem
    exact (h.stats_stem hs' hx').1
  rw [filter_stopped hself, stopsOn, hstats]
  rfl

section

variable {handed : List Spill}

/-- Each channel stops at most once. -/
theorem Woven.nodup_stopped (h : Woven m members spills reads)
    (hfind : ∀ c, (stopped handed).filter (·.channel = c) = stopsOn c spills) :
    ((stopped handed).map (·.channel)).Nodup := by
  refine List.nodup_iff_count_le_one.mpr fun c => ?_
  have hcount : ((stopped handed).map (·.channel)).count c = (stopsOn c spills).length := by
    rw [← hfind, List.count_eq_length_filter, List.filter_map, List.length_map]
    rfl
  rw [hcount]
  rcases h.stops_once c with ⟨x, hx, -⟩ | ⟨hnone, -⟩
  · rw [hx]
    exact Nat.le_refl 1
  · rw [hnone]
    exact Nat.zero_le 1

/-- Statistics that say a channel has stopped count the hits that were generated for it. -/
theorem Woven.counts (h : Woven m members spills reads)
    (hfind : ∀ c, (stopped handed).filter (·.channel = c) = stopsOn c spills) {x : Snapshot Float}
    (hx : x ∈ stopped handed) : x.counter? Snapshot.triggerCount =
      some (Hit.onChannel x.channel (generated reads)).length.toFloat := by
  have hmem : x ∈ stopsOn x.channel spills := by
    rw [← hfind]
    exact List.mem_filter.mpr ⟨hx, decide_eq_true rfl⟩
  rcases h.stops_once x.channel with ⟨y, hy, hcount⟩ | ⟨hnone, -⟩
  · rw [hy] at hmem
    rw [List.mem_singleton.mp hmem] at hcount ⊢
    exact hcount
  · rw [hnone] at hmem
    nomatch hmem

/-- If no readout has crashed, every channel with hits stops. -/
theorem Woven.stops (h : Woven m members spills reads)
    (hfind : ∀ c, (stopped handed).filter (·.channel = c) = stopsOn c spills)
    (hsound : ∀ a ∈ reads, a.draw?.isSome = true) {c : Channel}
    (hhits : Hit.onChannel c (generated reads) ≠ []) : c ∈ (stopped handed).map (·.channel) := by
  rcases h.stops_once c with ⟨y, hy, -⟩ | ⟨-, hnil | ⟨a, ha, hnone⟩⟩
  · have hstop : y ∈ (stopped handed).filter (·.channel = c) := by
      rw [hfind, hy]
      exact List.mem_singleton.mpr rfl
    obtain ⟨hstop, hc⟩ := List.mem_filter.mp hstop
    exact List.mem_map.mpr ⟨y, hstop, of_decide_eq_true hc⟩
  · exact absurd hnil hhits
  · have hsome := hsound a ha
    rw [hnone] at hsome
    nomatch hsome

end

/-- What a merge of several digitizers hands over: no buffer was undecodable, the hits are in order,
each channel has what was generated for it, and statistics that say a channel has stopped count its
hits. -/
theorem Woven.merged (h : Woven m members spills reads) (hm : m.Fresh) {channels : List Channel}
    (hall : ∀ p ∈ members, ∀ c ∈ p.config.channels, c ∈ channels) {final : Merger}
    (hfinal : final = ((m.withChannels channels).pushAll spills).finish) :
    final.report.decodeErrors = 0 ∧
    (final.deliveredSince m).Pairwise (·.key ≤ ·.key) ∧
    (∀ c, Hit.onChannel c (final.deliveredSince m) = Hit.onChannel c (generated reads)) ∧
    ((stopped (final.handedSince m)).map (·.channel)).Nodup ∧
    (∀ x ∈ stopped (final.handedSince m), x.counter? Snapshot.triggerCount =
      some (Hit.onChannel x.channel (final.deliveredSince m)).length.toFloat) ∧
    ((∀ a ∈ reads, a.draw?.isSome = true) →
      ((stopped (final.handedSince m)).map fun x =>
        (Hit.onChannel x.channel (final.deliveredSince m)).length).sum =
      (final.deliveredSince m).length) := by
  have hfresh := hm.withChannels channels
  have hpromised := (h.promised hall).withChannels
  have htracks := hfresh.tracks_pushAll spills
  have hcoherent := hfresh.coherent.pushAll spills
  have hsorted : final.deliveredSince m = Hit.sortByKey (m.arrivals spills) := by
    rw [hfinal]
    exact hpromised.deliveredSince_finish hfresh fun _ => Merger.isOpen_withChannels hm _
  have hchannel : ∀ c, Hit.onChannel c (final.deliveredSince m) =
      Hit.onChannel c (generated reads) := by
    intro c
    rw [hfinal]
    exact (htracks.onChannel_finish hcoherent c).trans (h.onChannel_arrivals c).1
  have hfind : ∀ c, (stopped (final.handedSince m)).filter (·.channel = c) = stopsOn c spills := by
    intro c
    rw [hfinal]
    exact h.filter_handed hfresh c
  have hnodup := h.nodup_stopped hfind
  refine ⟨?_, ?_, hchannel, hnodup, fun x hx => ?_, fun hsound => ?_⟩
  · rw [hfinal]
    have hexhausted := (htracks.exhaust hcoherent).1.decodeErrors_eq
    refine hexhausted.trans (List.sum_eq_zero fun n hn => ?_)
    obtain ⟨s, hs, rfl⟩ := List.mem_map.mp hn
    exact congrArg Prod.snd (h.decode hs)
  · rw [hsorted]
    exact Hit.pairwise_sortByKey _
  · rw [hchannel]
    exact h.counts hfind hx
  · have hcover : ∀ x ∈ final.deliveredSince m,
        x.channel ∈ (stopped (final.handedSince m)).map (·.channel) := by
      intro x hx
      refine h.stops hfind hsound (List.ne_nil_of_mem (a := x) ?_)
      rw [← hchannel]
      exact Hit.mem_onChannel.mpr ⟨hx, rfl⟩
    have hsum := sum_length_onChannel hnodup hcover
    rwa [List.map_map] at hsum

end

end ListMode.Synthetic
