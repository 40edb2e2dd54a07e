import Mathlib.Data.List.Basic
import Mathlib.Data.List.Induction
import ListMode.Proofs.Merger.Departure

/-!
# The order in which spills leave

Of two spills with a common source or channel the older leaves first, and nothing older stays behind
a boundary. When a spill leaves, every hit of its channels that arrived with it or before it has
been handed over. `Logged` is kept by each step of a run; the order of a channel's statistics and of
the boundaries follows from it.
-/

namespace ListMode.Merger

/-- Channels of the hits and of the statistics of a spill. -/
def touched (m : Merger) (s : Spill) : List Channel :=
  (m.decoded s).map (·.channel) ++ s.stats.keys

/-- Whether the older spill `s` has to leave before `s'`. -/
def Precedes (m : Merger) (s s' : Spill) : Prop :=
  s'.run.isSome = true ∨ (∃ source, s.source = some source ∧ s'.source = some source) ∨
    ∃ c ∈ m.touched s, c ∈ m.touched s'

/-- Run metadata as it is handed over after `n` hits. -/
def stamp (n : Nat) (run : RunInfo) : RunInfo :=
  if run.isClosing then { run with totalEvents := n } else run

/-- All that arrived on channel `c` with the spills up to number `i` is handed over in `log`. -/
def HandedOver (m : Merger) (spills : List Spill) (c : Channel) (i : Nat) (log : List Departure) :
    Prop :=
  Hit.onChannel c (m.arrivals (spills.take (i + 1))) <+: Hit.onChannel c (Departure.hits log)

/-- What was handed over stays so. -/
theorem HandedOver.append {m : Merger} {spills : List Spill} {c : Channel} {i : Nat}
    {log : List Departure} (h : m.HandedOver spills c i log) (more : List Departure) :
    m.HandedOver spills c i (log ++ more) := by
  refine List.IsPrefix.trans h ?_
  have hhits : Departure.hits (log ++ more) = Departure.hits log ++ Departure.hits more :=
    List.flatMap_append
  rw [hhits, Hit.onChannel_append]
  exact List.prefix_append _ _

/-- Departure `d` of spill `s`, after those of `before`, carries the metadata of `s`, after all that
had to leave earlier and after all hits that arrived earlier on its channels. -/
structure Departs (m : Merger) (spills : List Spill) (before : List Departure) (d : Departure)
    (s : Spill) : Prop where
  spill_eq : spills[d.seq]? = some s
  parcel_eq : d.parcel = {
    source := none
    payload := .events d.parcel.hits
    stats := s.stats
    run := s.run.map (stamp (Departure.hits (before ++ [d])).length)
    detectors := s.detectors }
  older : ∀ i s', i < d.seq → spills[i]? = some s' → m.Precedes s' s → i ∈ before.map (·.seq)
  handedOver : ∀ c, c ∈ m.touched s ∨ s.run.isSome = true →
    m.HandedOver spills c d.seq (before ++ [d])

/-- `log` tells what has left and what the sink received since the merger was `m₀`. -/
structure Logged (m₀ : Merger) (past : List Spill) (log : List Departure) (m : Merger) : Prop where
  handed_eq : m.handedSince m₀ = (log.map (·.parcel)).filter (!·.isEmpty)
  nodup : (log.map (·.seq)).Nodup
  mem_inFlight : ∀ seq, seq ∈ m.inFlight.keys ↔ seq < past.length ∧ seq ∉ log.map (·.seq)
  output_backed : m.output = [] ∨ m.inFlight.keys ≠ []
  departs : ∀ before d after, log = before ++ d :: after → ∃ s, m₀.Departs past before d s

section

variable {m₀ m m' : Merger} {past : List Spill} {log : List Departure}

theorem hits_append (log : List Departure) (d : Departure) :
    Departure.hits (log ++ [d]) = Departure.hits log ++ d.parcel.hits := by
  simp [Departure.hits]

/-- A spill with nothing in it has no hits. -/
theorem hits_of_isEmpty {s : Spill} (h : s.isEmpty = true) : s.hits = [] := by
  simp only [Spill.isEmpty, Bool.and_eq_true] at h
  cases hp : s.payload with
  | raw buffer => simp [Spill.hits, hp, Payload.hits]
  | events hits => simpa [Spill.hits, hp, Payload.hits, Payload.isEmpty] using h.1.1.1

/-- The spills with something in them have all the hits. -/
theorem flatMap_hits_filter (spills : List Spill) :
    (spills.filter (!·.isEmpty)).flatMap Spill.hits = spills.flatMap Spill.hits := by
  apply KeyMap.flatMap_filter_eq
  intro s _ he
  apply hits_of_isEmpty
  simpa using he

/-- What was handed over is what left. -/
theorem Logged.deliveredSince_eq (h : m₀.Logged past log m) :
    m.deliveredSince m₀ = Departure.hits log := by
  rw [deliveredSince, h.handed_eq, flatMap_hits_filter, List.flatMap_map]
  rfl

/-- More spills change nothing about what has left. -/
theorem Departs.append {d : Departure} {s : Spill} (h : m₀.Departs past log d s) (s' : Spill) :
    m₀.Departs (past ++ [s']) log d s := by
  have hlt : d.seq < past.length := (List.getElem?_eq_some_iff.mp h.spill_eq).1
  refine ⟨?_, h.parcel_eq, ?_, ?_⟩
  · rw [List.getElem?_append_left hlt]
    exact h.spill_eq
  · intro i t hi ht
    rw [List.getElem?_append_left (by omega)] at ht
    exact h.older i t hi ht
  · intro c hc
    rw [HandedOver, List.take_append_of_le_length (by omega)]
    exact h.handedOver c hc

theorem Logged.mem_log (h : m₀.Logged past log m) {d : Departure} (hd : d ∈ log) :
    ∃ before s, m₀.Departs past before d s := by
  obtain ⟨before, after, hlog⟩ := List.append_of_mem hd
  obtain ⟨s, hs⟩ := h.departs before d after hlog
  exact ⟨before, s, hs⟩

/-- When nothing is in flight, every spill has left. -/
theorem Logged.left (h : m₀.Logged past log m) (hgone : m.inFlight.keys = []) {i : Nat}
    (hi : i < past.length) : i ∈ log.map (·.seq) := by
  by_contra hnot
  have hflying := (h.mem_inFlight i).mpr ⟨hi, hnot⟩
  rw [hgone] at hflying
  nomatch hflying

theorem Logged.receive (h : m₀.Logged past log m) (ht : m₀.Tracks past m) (s : Spill) :
    m₀.Logged (past ++ [s]) log (m.receive s) := by
  obtain ⟨hsink, -, -, -, -, -, hfl⟩ := receive_fields m s
  have hkeys : ∀ seq,
      seq ∈ (m.receive s).inFlight.keys ↔ past.length = seq ∨ seq ∈ m.inFlight.keys := by
    intro seq
    rw [KeyMap.mem_keys_iff, KeyMap.mem_keys_iff, hfl, KeyMap.get?_insert, ht.nextSeq_eq]
    by_cases hs : past.length = seq
    · simp [hs]
    · simp [hs]
  have hlog : ∀ d ∈ log, d.seq < past.length := by
    intro d hd
    obtain ⟨_, s, hs⟩ := h.mem_log hd
    exact (List.getElem?_eq_some_iff.mp hs.spill_eq).1
  refine ⟨?_, h.nodup, ?_, ?_, ?_⟩
  · rw [handedSince, hsink]
    exact h.handed_eq
  · intro seq
    rw [hkeys, h.mem_inFlight, List.length_append, List.length_singleton]
    constructor
    · rintro (rfl | ⟨hlt, hnot⟩)
      · refine ⟨by omega, fun hmem => ?_⟩
        obtain ⟨d, hd, hseq⟩ := List.mem_map.mp hmem
        have := hlog d hd
        omega
      · exact ⟨by omega, hnot⟩
    · rintro ⟨hlt, hnot⟩
      by_cases hs : past.length = seq
      · exact .inl hs
      · exact .inr ⟨by omega, hnot⟩
  · refine .inr fun hnil => ?_
    have := (hkeys past.length).mpr (.inl rfl)
    rw [hnil] at this
    cases this
  · intro before d after hl
    obtain ⟨t, ht⟩ := h.departs before d after hl
    exact ⟨t, ht.append s⟩

theorem Logged.emission {hit : Hit} {seq : Nat} (h : m₀.Logged past log m) (hc : m.Coherent)
    (he : Emission m hit seq m') : m₀.Logged past log m' := by
  have hkeys : ∀ k, k ∈ m'.inFlight.keys ↔ k ∈ m.inFlight.keys := by
    intro k
    rw [he.inFlight_eq]
    exact keys_settle m.inFlight seq k
  have htag : seq ∈ m.tags := (he.laned_perm.map Prod.snd).mem_iff.mpr (by simp)
  refine ⟨?_, h.nodup, fun k => (hkeys k).trans (h.mem_inFlight k), .inr fun hnil => ?_, h.departs⟩
  · rw [handedSince, he.sink_eq]
    exact h.handed_eq
  · have hmem := (hkeys seq).mpr (hc.tag_mem seq htag)
    rw [hnil] at hmem
    cases hmem

theorem Logged.close (h : m₀.Logged past log m) : m₀.Logged past log m.close :=
  ⟨h.handed_eq, h.nodup, h.mem_inFlight, h.output_backed, h.departs⟩

theorem onChannel_arrivals (m : Merger) (spills : List Spill) (c : Channel) :
    ((m.tagged spills).filter (·.1.channel = c)).map (·.1) =
      Hit.onChannel c (m.arrivals spills) := by
  rw [← map_tagged, Hit.onChannel, List.filter_map]
  rfl

/-- When no hit of a spill up to number `i` is buffered on a channel, all of them are emitted. -/
theorem Tracks.onChannel_take (ht : m₀.Tracks past m) {c : Channel} {i : Nat}
    (hl : ∀ x ∈ m.lane c, i < x.2) :
    Hit.onChannel c (m₀.arrivals (past.take (i + 1))) <+: Hit.onChannel c (m.emittedSince m₀) := by
  obtain ⟨gone, hgone⟩ := ht.lane_suffix c
  have hem : Hit.onChannel c (m.emittedSince m₀) = gone.map (·.1) := by
    have hf := ht.fifo c
    rw [← onChannel_arrivals, ← hgone, List.map_append] at hf
    exact List.append_cancel_right hf
  rw [hem, ← onChannel_arrivals]
  refine List.IsPrefix.map _ ?_
  have hpre := (m₀.tagged_take_initial past (i + 1)).filter (·.1.channel = c)
  have hgone' : gone <+: (m₀.tagged past).filter (·.1.channel = c) := ⟨_, hgone⟩
  rcases List.prefix_or_prefix_of_prefix hpre hgone' with h | h
  · exact h
  · obtain ⟨more, hmore⟩ := h
    -- What would come between is in the lane, yet of a spill up to number i.
    cases more with
    | nil =>
      rw [List.append_nil] at hmore
      exact hmore ▸ List.prefix_refl _
    | cons x more =>
      rw [← hmore] at hpre
      obtain ⟨rest, hrest⟩ := hpre
      rw [← hgone, List.append_assoc] at hrest
      have hlane := List.append_cancel_left hrest
      have hx : i < x.2 := hl x (by rw [← hlane]; simp)
      have hmem : x ∈ m₀.tagged (past.take (i + 1)) := by
        have : x ∈ gone ++ x :: more := by simp
        rw [hmore] at this
        exact (List.mem_filter.mp this).1
      obtain ⟨s, hs, -⟩ := mem_tagged.mp hmem
      have := (List.getElem?_eq_some_iff.mp hs).1
      rw [List.length_take] at this
      omega

/-- In flight a spill holds back what it precedes. -/
theorem Tracks.holds_iff (ht : m₀.Tracks past m) {i j : Nat} {e e' : InFlight} {s s' : Spill}
    (he : m.inFlight.get? i = some e) (he' : m.inFlight.get? j = some e') (hs : past[i]? = some s)
    (hs' : past[j]? = some s') : e.Holds e' ↔ m₀.Precedes s s' := by
  obtain ⟨t, ht₁, hspill, hchannels⟩ := ht.entry_eq i e he
  obtain ⟨t', ht₂, hspill', hchannels'⟩ := ht.entry_eq j e' he'
  obtain rfl : s = t := Option.some.inj (hs.symm.trans ht₁)
  obtain rfl : s' = t' := Option.some.inj (hs'.symm.trans ht₂)
  rw [InFlight.Holds, hspill, hspill', hchannels, hchannels']
  rfl

/-- A spill that is not held back leaves after all that had to leave or be handed over earlier. -/
theorem Logged.departure (h : m₀.Logged past log m) (ht : m₀.Tracks past m) (hc : m.Coherent)
    {x : Nat × InFlight} (hx : m.inFlight.get? x.1 = some x.2) (hr : x.2.remaining = 0)
    (hu : m.Unheld x) : ∃ s, m₀.Departs past log (m.departure x) s := by
  obtain ⟨s, hs, hspill, -⟩ := ht.entry_eq x.1 x.2 hx
  have hhits : Departure.hits (log ++ [m.departure x]) = m.emittedSince m₀ := by
    rw [hits_append, ← h.deliveredSince_eq]
    rfl
  -- What is in flight with an older number does not precede the spill.
  have hfree : ∀ i s', i ∈ m.inFlight.keys → i < x.1 → past[i]? = some s' → ¬m₀.Precedes s' s := by
    intro i s' hi hlt hs' hprec
    obtain ⟨e, he⟩ := KeyMap.mem_keys_iff.mp hi
    exact hu i e he hlt ((ht.holds_iff he hx hs' hs).mpr hprec)
  refine ⟨s, hs, ?_, ?_, ?_⟩
  · rw [hhits, emittedSince, List.length_append, ← ht.eventsOut_eq, Merger.departure, hspill]
    rfl
  · intro i s' hi hs' hprec
    by_cases hmem : i ∈ log.map (·.seq)
    · exact hmem
    · have hlt := (List.getElem?_eq_some_iff.mp hs').1
      exact absurd hprec (hfree i s' ((h.mem_inFlight i).mpr ⟨hlt, hmem⟩) hi hs')
  · intro c hcs
    rw [HandedOver, hhits]
    refine ht.onChannel_take fun y hy => ?_
    have htag : y.2 ∈ m.tags := List.mem_map.mpr ⟨y, mem_laned.mpr ⟨c, hy⟩, rfl⟩
    obtain ⟨t, ht', hyt⟩ := mem_tagged.mp (List.mem_filter.mp ((ht.lane_suffix c).subset hy)).1
    have hyc : y.1.channel = c := hc.channel_eq c y hy
    have hne : y.2 ≠ x.1 := fun he => hc.not_mem_tags hx hr (he ▸ htag)
    have hprec : m₀.Precedes t s := by
      rcases hcs with hcs | hrun
      · refine .inr (.inr ⟨c, List.mem_append_left _ ?_, hcs⟩)
        exact List.mem_map.mpr ⟨y.1, hyt, hyc⟩
      · exact .inl hrun
    have hlt : ¬y.2 < x.1 := fun hlt => hfree y.2 t (hc.tag_mem y.2 htag) hlt ht' hprec
    change x.1 < y.2
    omega

theorem Logged.release (h : m₀.Logged past log m) (ht : m₀.Tracks past m) (hc : m.Coherent)
    {x : Nat × InFlight} (hx : m.inFlight.get? x.1 = some x.2) (hr : x.2.remaining = 0)
    (hu : m.Unheld x) : m₀.Logged past (log ++ [m.departure x]) (m.release x) := by
  obtain ⟨hlt, hnot⟩ := (h.mem_inFlight x.1).mp (KeyMap.mem_keys_iff.mpr ⟨_, hx⟩)
  refine ⟨?_, ?_, ?_, .inl (release_fields m x).2.2.2.2.2.1, ?_⟩
  · rw [List.map_append, List.filter_append, ← h.handed_eq]
    exact handedSince_deliver (m := { m with inFlight := m.inFlight.erase x.1 }) ht.sink_initial
      x.2.spill
  · rw [List.map_append, List.nodup_append]
    refine ⟨h.nodup, by simp, ?_⟩
    rintro a ha b hb rfl
    rw [List.map_singleton, List.mem_singleton] at hb
    have hax : a = x.1 := hb
    exact hnot (hax ▸ ha)
  · intro seq
    rw [KeyMap.mem_keys_iff, (release_fields m x).2.1, KeyMap.get?_erase, List.map_append,
      List.mem_append, List.map_singleton, List.mem_singleton]
    have hold := h.mem_inFlight seq
    rw [KeyMap.mem_keys_iff] at hold
    change _ ↔ seq < past.length ∧ ¬(_ ∨ seq = x.1)
    by_cases hs : x.1 = seq
    · simp [hs]
    · rw [if_neg hs, hold]
      simp [Ne.symm hs]
  · intro before d after hl
    rcases List.eq_nil_or_concat after with rfl | ⟨rest, d', rfl⟩
    · obtain ⟨rfl, hd⟩ := List.append_inj' hl rfl
      rw [← List.singleton_inj.mp hd]
      exact h.departure ht hc hx hr hu
    · rw [List.concat_eq_append, ← List.cons_append, ← List.append_assoc] at hl
      exact h.departs before d rest (List.append_inj' hl rfl).1

theorem Logged.merge (h : m₀.Logged past log m) (hc : m.Coherent) : m₀.Logged past log m.merge :=
  (hc.merge_induct h fun _ _ _ _ hc h he => h.emission hc he).1

theorem Logged.drain (h : m₀.Logged past log m) (ht : m₀.Tracks past m) (hc : m.Coherent) :
    m₀.Logged past (log ++ m.departures m.leaving) m.drain :=
  (hc.drain_departures (P := fun m log => m₀.Logged past log m ∧ m₀.Tracks past m) ⟨h, ht⟩
    fun _ _ x hc h hx hr hu => ⟨h.1.release h.2 hc hx hr hu, h.2.release x⟩).1

theorem Logged.push (h : m₀.Logged past log m) (ht : m₀.Tracks past m) (hc : m.Coherent)
    (s : Spill) : m₀.Logged (past ++ [s]) (log ++ m.pushLog s) (m.push s) :=
  ((h.receive ht s).merge (hc.receive s)).drain ((ht.receive s).merge (hc.receive s))
    (hc.receive s).merge

end

/-! ## Whole runs -/

section

variable {m : Merger} {spills : List Spill}

theorem Fresh.logged (h : m.Fresh) : m.Logged [] [] m := by
  refine ⟨by simp [handedSince], .nil, ?_, .inl h.output_eq, by simp⟩
  intro seq
  rw [h.inFlight_eq]
  simp [KeyMap.keys, EmptyCollection.emptyCollection, KeyMap.empty]

theorem Fresh.logged_pushAll (h : m.Fresh) (spills : List Spill) :
    m.Logged spills (m.history spills) (m.pushAll spills) := by
  induction spills using List.reverseRecOn with
  | nil => exact h.logged
  | append_singleton past s ih =>
    rw [history_append, pushAll_append, history, history, List.append_nil]
    exact ih.push (h.tracks_pushAll past) (h.coherent.pushAll past) s

/-- When no hit is buffered, everything leaves. -/
theorem inFlight_drain (hc : m.Coherent) (hl : ∀ c, m.lane c = []) :
    m.drain.inFlight.keys = [] := by
  have hnone : ∀ x ∈ m.inFlight.entries, x.2.remaining = 0 := by
    intro x hx
    have hlaned : laned m.lanes = [] := by
      refine List.eq_nil_iff_forall_not_mem.mpr fun y hy => ?_
      obtain ⟨c, hy⟩ := mem_laned.mp hy
      rw [← lane, hl] at hy
      cases hy
    rw [hc.remaining_eq x.1 x.2 ((KeyMap.get?_eq_some_iff _).mpr hx), tags, hlaned]
    rfl
  have hall : m.leaving = m.inFlight.entries := Hold.released_none hnone
  refine List.eq_nil_iff_forall_not_mem.mpr fun k hk => ?_
  obtain ⟨e, he⟩ := KeyMap.mem_keys_iff.mp hk
  rw [drain_eq, get?_foldl_release, hall] at he
  split at he
  · cases he
  · rename_i hnot
    exact hnot (KeyMap.mem_keys_iff.mpr ⟨e, he⟩)

/-- At the end every spill has left. -/
theorem inFlight_wound (hc : m.Coherent) : m.wound.inFlight.keys = [] :=
  inFlight_drain hc.close.merge (lane_close_merge hc)

theorem Logged.wound {m₀ : Merger} {past : List Spill} {log : List Departure}
    (h : m₀.Logged past log m) (ht : m₀.Tracks past m) (hc : m.Coherent) :
    m₀.Logged past (log ++ m.finishLog) m.wound :=
  (h.close.merge hc.close).drain (ht.close.merge hc.close) hc.close.merge

/-- Nothing is left over at the end. -/
theorem Logged.exhaust_eq {m₀ : Merger} {past : List Spill} {log : List Departure}
    (h : m₀.Logged past log m) (ht : m₀.Tracks past m) (hc : m.Coherent) :
    m.exhaust = m.wound := by
  have ho := (h.wound ht hc).output_backed.resolve_right fun hne => hne (inFlight_wound hc)
  rw [Merger.exhaust_eq, ho]
  rfl

/-- What has left after `spills` and, if `finished`, at the end. -/
def log (m : Merger) (spills : List Spill) (finished : Bool) : List Departure :=
  m.history spills ++ if finished then (m.pushAll spills).finishLog else []

/-- The merger after `spills` and, if `finished`, the end. -/
def ran (m : Merger) (spills : List Spill) (finished : Bool) : Merger :=
  if finished then (m.pushAll spills).finish else m.pushAll spills

theorem Fresh.logged_ran (h : m.Fresh) (spills : List Spill) (finished : Bool) :
    m.Logged spills (m.log spills finished) (m.ran spills finished) := by
  have hl := h.logged_pushAll spills
  cases finished with
  | false =>
    rw [log, ran, if_neg Bool.false_ne_true, if_neg Bool.false_ne_true, List.append_nil]
    exact hl
  | true =>
    have ht := h.tracks_pushAll spills
    have hc := h.coherent.pushAll spills
    rw [log, ran, if_pos rfl, if_pos rfl, finish, hl.exhaust_eq ht hc]
    have hw := hl.wound ht hc
    exact ⟨hw.handed_eq, hw.nodup, hw.mem_inFlight, hw.output_backed, hw.departs⟩

theorem Fresh.inFlight_ran (hm : m.Fresh) (spills : List Spill) :
    (m.ran spills true).inFlight.keys = [] := by
  rw [ran, if_pos rfl, finish,
    (hm.logged_pushAll spills).exhaust_eq (hm.tracks_pushAll spills) (hm.coherent.pushAll spills)]
  exact inFlight_wound (hm.coherent.pushAll spills)

/-! ## Statistics of a channel -/

/-- The statistics of channel `c` in a spill. -/
def statsOn (c : Channel) (s : Spill) : Option (Snapshot Float) := s.stats.get? c

/-- A list without repetitions in which each number with property `p` comes after all smaller ones
with it holds these numbers in their order. -/
theorem filter_eq_range {p : Nat → Bool} {l : List Nat} (hn : l.Nodup)
    (h : ∀ before j after, l = before ++ j :: after → p j = true →
      ∀ i < j, p i = true → i ∈ before) :
    ∃ k, l.filter p = (List.range k).filter p := by
  induction l using List.reverseRecOn with
  | nil => exact ⟨0, rfl⟩
  | append_singleton l j ih =>
    obtain ⟨hl, -, hj⟩ := List.nodup_append.mp hn
    obtain ⟨k, hk⟩ := ih hl fun before i after he =>
      h before i (after ++ [j]) (by rw [he, List.append_assoc, List.cons_append])
    cases hp : p j with
    | false =>
      refine ⟨k, ?_⟩
      rw [List.filter_append, List.filter_cons_of_neg (by simp [hp]), List.filter_nil,
        List.append_nil, hk]
    | true =>
      have hmem : ∀ i, p i = true → (i ∈ l ↔ i < k) := by
        intro i hi
        have := congrArg (i ∈ ·) hk
        simpa [hi] using this
      have hkj : k ≤ j := by
        have : ¬j < k := fun hlt => hj j ((hmem j hp).mpr hlt) j (by simp) rfl
        omega
      refine ⟨j + 1, ?_⟩
      rw [List.filter_append, hk, List.range_succ, List.filter_append]
      congr 1
      -- From k up to j there is none.
      rw [← List.take_append_drop k (List.range j), List.filter_append, List.take_range,
        Nat.min_eq_left hkj]
      have hnone : ((List.range j).drop k).filter p = [] := by
        refine List.filter_eq_nil_iff.mpr fun i hi hpi => ?_
        obtain ⟨n, hn, rfl⟩ := List.mem_drop_iff_getElem.mp hi
        rw [List.length_range] at hn
        rw [List.getElem_range] at hpi
        have hin := h l j [] rfl hp (k + n) (by omega) hpi
        have := (hmem _ hpi).mp hin
        omega
      rw [hnone, List.append_nil]

end

theorem filterMap_range {β : Type} (spills : List Spill) (f : Spill → Option β) (k : Nat) :
    (List.range k).filterMap (fun i => spills[i]?.bind f) = (spills.take k).filterMap f := by
  induction k with
  | zero => simp
  | succ k ih =>
    rw [List.range_succ, List.filterMap_append, ih, List.take_add_one, List.filterMap_append]
    cases hk : spills[k]? with
    | none => simp [hk]
    | some s => simp [List.filterMap_cons, hk]

theorem filterMap_filter_isSome {α β : Type} (f : α → Option β) (l : List α) :
    (l.filter fun a => (f a).isSome).filterMap f = l.filterMap f := by
  rw [List.filterMap_filter]
  refine List.filterMap_congr fun a _ => ?_
  cases f a <;> simp

section

variable {m₀ m : Merger} {past : List Spill} {log : List Departure}

/-- A spill that is not handed over has no statistics, so those handed over are those that left. -/
theorem Logged.statsOn_handedSince (h : m₀.Logged past log m) (c : Channel) :
    (m.handedSince m₀).filterMap (statsOn c) =
      (log.map (·.seq)).filterMap fun i => past[i]?.bind (statsOn c) := by
  rw [h.handed_eq, List.filterMap_filter, List.filterMap_map, List.filterMap_map]
  refine List.filterMap_congr fun d hd => ?_
  obtain ⟨before, after, hlog⟩ := List.append_of_mem hd
  obtain ⟨s, hs⟩ := h.departs before d after hlog
  have hstats : d.parcel.stats = s.stats := by rw [hs.parcel_eq]
  simp only [Function.comp_apply, hs.spill_eq, Option.bind_some, statsOn, ← hstats]
  cases he : d.parcel.isEmpty with
  | false => simp
  | true =>
    simp only [Spill.isEmpty, Bool.and_eq_true, KeyMap.isEmpty, List.isEmpty_iff] at he
    simp [KeyMap.get?, he.1.1.2, KeyMap.lookup]

/-- The statistics of a channel that were handed over are the first that were pushed. -/
theorem Logged.exists_take (h : m₀.Logged past log m) (c : Channel) :
    ∃ k, (m.handedSince m₀).filterMap (statsOn c) = (past.take k).filterMap (statsOn c) ∧
      ∀ i, (past[i]?.bind (statsOn c)).isSome = true → i ∈ log.map (·.seq) → i < k := by
  have htouched : ∀ (i : Nat) (s : Spill), past[i]? = some s →
      (past[i]?.bind (statsOn c)).isSome = true → c ∈ m₀.touched s := by
    intro i s hs hi
    rw [hs, Option.bind_some] at hi
    exact List.mem_append_right _ (KeyMap.mem_keys_iff.mpr (Option.isSome_iff_exists.mp hi))
  have hordered : ∀ before j after, log.map (·.seq) = before ++ j :: after →
      (past[j]?.bind (statsOn c)).isSome = true →
      ∀ i < j, (past[i]?.bind (statsOn c)).isSome = true → i ∈ before := by
    intro before j after hl hj i hij hi
    obtain ⟨before, rest, hlog, rfl, hrest⟩ := List.map_eq_append_iff.mp hl
    obtain ⟨d, after, rfl, rfl, -⟩ := List.map_eq_cons_iff.mp hrest
    obtain ⟨s, hs⟩ := h.departs before d after hlog
    cases hs' : past[i]? with
    | none => simp [hs'] at hi
    | some s' =>
      refine hs.older i s' hij hs' (.inr (.inr ⟨c, htouched i s' hs' hi, ?_⟩))
      exact htouched d.seq s hs.spill_eq hj
  obtain ⟨k, hk⟩ := filter_eq_range h.nodup hordered
  refine ⟨k, ?_, fun i hi hmem => ?_⟩
  · rw [h.statsOn_handedSince, ← filterMap_filter_isSome, hk, filterMap_filter_isSome,
      filterMap_range]
  · have := congrArg (i ∈ ·) hk
    simpa [hi, hmem] using this

theorem Logged.stats_initial (h : m₀.Logged past log m) (c : Channel) :
    (m.handedSince m₀).filterMap (statsOn c) <+: past.filterMap (statsOn c) := by
  obtain ⟨k, hk, -⟩ := h.exists_take c
  rw [hk]
  exact (List.take_prefix k past).filterMap _

/-- When all has left, all statistics have been handed over. -/
theorem Logged.stats_all (h : m₀.Logged past log m) (hall : m.inFlight.keys = []) (c : Channel) :
    (m.handedSince m₀).filterMap (statsOn c) = past.filterMap (statsOn c) := by
  obtain ⟨k, hk, hlt⟩ := h.exists_take c
  have hrest : (past.drop k).filterMap (statsOn c) = [] := by
    refine List.filterMap_eq_nil_iff.mpr fun s hs => ?_
    obtain ⟨n, hn, rfl⟩ := List.mem_drop_iff_getElem.mp hs
    by_contra hne
    have hget : past[k + n]? = some past[k + n] := List.getElem?_eq_getElem (by omega)
    have hgone : k + n ∈ log.map (·.seq) := h.left hall (by omega)
    have := hlt (k + n) (by rw [hget]; exact Option.isSome_iff_ne_none.mpr hne) hgone
    omega
  rw [hk]
  conv => rhs; rw [← List.take_append_drop k past, List.filterMap_append, hrest, List.append_nil]

end

/-- Spills leave in order, at any point of a run and after its end. The log tells what left and what
the sink received. When a spill leaves, each older one that has to precede it has left, with all its
hits handed over; its own hits are handed over, and so is all that arrived on its statistics'
channels, or on any channel if it is a boundary. The statistics of a channel are handed over in the
order in which they were pushed, and in the end all of them are. -/
theorem drained_in_order {m : Merger} (hm : m.Fresh) (spills : List Spill) (finished : Bool) :
    (m.ran spills finished).handedSince m =
      ((m.log spills finished).map (·.parcel)).filter (!·.isEmpty) ∧
    ((m.log spills finished).map (·.seq)).Nodup ∧
    (∀ past future, spills = past ++ future → m.log past false <+: m.log spills finished) ∧
    (∀ seq, seq ∈ (m.ran spills finished).inFlight.keys ↔
      seq < spills.length ∧ seq ∉ (m.log spills finished).map (·.seq)) ∧
    (finished = true → (m.ran spills finished).inFlight.keys = []) ∧
    (∀ before d after, m.log spills finished = before ++ d :: after → ∃ s, spills[d.seq]? = some s ∧
      d.parcel.stats = s.stats ∧ d.parcel.detectors = s.detectors ∧
      d.parcel.run = s.run.map (stamp (Departure.hits (before ++ [d])).length) ∧
      (∀ i s', i < d.seq → spills[i]? = some s' → m.Precedes s' s → i ∈ before.map (·.seq) ∧
        ∀ h ∈ m.decoded s', m.HandedOver spills h.channel i (before ++ [d])) ∧
      (∀ h ∈ m.decoded s, m.HandedOver spills h.channel d.seq (before ++ [d])) ∧
      (∀ c ∈ s.stats.keys, m.HandedOver spills c d.seq (before ++ [d])) ∧
      (s.run.isSome = true → ∀ c, m.HandedOver spills c d.seq (before ++ [d]))) ∧
    ∀ c, (((m.ran spills finished).handedSince m).filterMap (statsOn c) <+:
        spills.filterMap (statsOn c)) ∧
      (finished = true → ((m.ran spills finished).handedSince m).filterMap (statsOn c) =
        spills.filterMap (statsOn c)) := by
  have hl := hm.logged_ran spills finished
  have hempty : finished = true → (m.ran spills finished).inFlight.keys = [] := by
    rintro rfl
    exact hm.inFlight_ran spills
  refine ⟨hl.handed_eq, hl.nodup, ?_, hl.mem_inFlight, hempty, ?_, fun c =>
    ⟨hl.stats_initial c, fun hf => hl.stats_all (hempty hf) c⟩⟩
  · rintro past future rfl
    rw [log, log, history_append, if_neg Bool.false_ne_true, List.append_nil, List.append_assoc]
    exact List.prefix_append _ _
  · intro before d after hlog
    obtain ⟨s, hs⟩ := hl.departs before d after hlog
    refine ⟨s, hs.spill_eq, by rw [hs.parcel_eq], by rw [hs.parcel_eq], by rw [hs.parcel_eq],
      ?_, ?_, ?_, fun hrun c => hs.handedOver c (.inr hrun)⟩
    · intro i s' hi hs' hprec
      have hbefore := hs.older i s' hi hs' hprec
      refine ⟨hbefore, fun h hh => ?_⟩
      -- The older spill had its hits handed over when it left.
      obtain ⟨d', hd', rfl⟩ := List.mem_map.mp hbefore
      obtain ⟨b, a, rfl⟩ := List.append_of_mem hd'
      obtain ⟨t, ht⟩ := hl.departs b d' (a ++ d :: after) (by rw [hlog]; simp)
      obtain rfl : s' = t := Option.some.inj (hs'.symm.trans ht.spill_eq)
      have hover := ht.handedOver h.channel
        (.inl (List.mem_append_left _ (List.mem_map.mpr ⟨h, hh, rfl⟩)))
      have hmore : b ++ d' :: a ++ [d] = b ++ [d'] ++ (a ++ [d]) := by simp
      rw [hmore]
      exact hover.append (a ++ [d])
    · intro h hh
      exact hs.handedOver h.channel (.inl (List.mem_append_left _ (List.mem_map.mpr ⟨h, hh, rfl⟩)))
    · exact fun c hc => hs.handedOver c (.inl (List.mem_append_right _ hc))

/-- A spill of a second source leaves while an older one waits, which a third may not overtake. -/
theorem drained_in_order_two_sources :
    let hit (c : Channel) (t : UInt64) : Hit := ⟨c, t, 7, .empty⟩
    let m := (new .empty).withChannels [0, 1]
    let spills : List Spill := [.events "left" [hit 0 20], .events "right" [hit 1 10],
      (Spill.events "left" []).withStats (.new 0.0 2 .running ⟨0, 0⟩), .boundary default]
    m.Fresh ∧ (m.log spills false).map (·.seq) = [1] ∧
      (m.log spills true).map (·.seq) = [1, 0, 2, 3] ∧
      (m.ran spills true).inFlight.keys = [] := by
  intro hit m spills
  have hm : m.Fresh := (fresh_new .empty).withChannels [0, 1]
  obtain ⟨-, -, -, -, hempty, -, -⟩ := drained_in_order hm spills true
  exact ⟨hm, by decide, by decide, hempty rfl⟩

end ListMode.Merger
