import ListMode.Proofs.Merger.Canonical
import ListMode.Proofs.Merger.DrainOrder

/-!
# Which hits can be overtaken

A channel that nobody declared, or that delivers after its stop, does not hold the merge up, so its
hits may come too late. That is the only way to lose the order: whenever a hit goes out before a
smaller one, the smaller one had not been pushed by then, and its channel had no lane or a closed
one (`overtaken_was_unawaited`). What the end emits is in order.
-/

namespace ListMode.Merger

/-! ## Whether a channel is awaited -/

/-- The newest statistics of channel `c` in `spills`. -/
def newest? (c : Channel) (spills : List Spill) : Option (Snapshot Float) :=
  (spills.filterMap (statsOn c)).getLast?

theorem newest?_append (c : Channel) (past : List Spill) (s : Spill) :
    newest? c (past ++ [s]) = (s.stats.get? c).or (newest? c past) := by
  unfold newest?
  cases h : s.stats.get? c with
  | none => simp [statsOn, h]
  | some u => simp [statsOn, h]

theorem newest?_eq_none {c : Channel} {spills : List Spill} (h : newest? c spills = none) :
    ∀ s ∈ spills, s.stats.get? c = none := by
  intro s hs
  rw [newest?, List.getLast?_eq_none_iff, List.filterMap_eq_nil_iff] at h
  exact h s hs

/-- Nobody waits for channel `c` at `m₁`, when `seen` has been pushed. It has no lane, since it was
not declared and has not been heard of, or the newest it said is that it stopped, which closed its
lane. -/
def Unawaited (m : Merger) (channels : List Channel) (seen : List Spill) (c : Channel)
    (m₁ : Merger) : Prop :=
  (m₁.lanes.get? c = none ∧ c ∉ channels ∧ ∀ s ∈ seen, c ∉ m.touched s) ∨
    ∃ l u, m₁.lanes.get? c = some l ∧ l.isOpen = false ∧ newest? c seen = some u ∧ u.isStop = true

section

variable {m : Merger}

theorem isOpen_emitUpTo (hc : m.Coherent) (n : Nat) (c : Channel) :
    ((emitUpTo n m).lanes.get? c).map (·.isOpen) = (m.lanes.get? c).map (·.isOpen) :=
  (hc.emitUpTo_induct (P := fun m' => (m'.lanes.get? c).map (·.isOpen) =
    (m.lanes.get? c).map (·.isOpen)) rfl (fun _ _ _ _ _ h he => (he.isOpen_eq c).trans h) n).1

theorem isOpen_push (hc : m.Coherent) (s : Spill) (c : Channel) :
    ((m.push s).lanes.get? c).map (·.isOpen) = ((m.receive s).lanes.get? c).map (·.isOpen) := by
  rw [push, lanes_drain (hc.receive s).merge]
  exact isOpen_emitUpTo (hc.receive s) _ c

theorem Fresh.isOpen_getD (h : m.Fresh) (c : Channel) :
    ((m.lanes.get? c).map (·.isOpen)).getD true = true := by
  cases hl : m.lanes.get? c with
  | none => rfl
  | some l => simp [h.lanes_eq c l hl, Lane.new]

/-- A lane is open or closed as the newest statistics of its channel say. Without statistics it is
open, once there has been a hit, and otherwise as in the beginning. -/
theorem Fresh.isOpen_pushAll (h : m.Fresh) (spills : List Spill) (c : Channel) :
    ((m.pushAll spills).lanes.get? c).map (·.isOpen) =
      match newest? c spills with
      | some u => some !u.isStop
      | none =>
        if c ∈ (m.arrivals spills).map (·.channel) then some true
        else (m.lanes.get? c).map (·.isOpen) := by
  induction spills using List.reverseRecOn with
  | nil => simp [newest?, arrivals, pushAll]
  | append_singleton past s ih =>
    have hdec : (m.pushAll past).decoded s = m.decoded s :=
      decoded_congr (h.tracks_pushAll past).decoders_eq s
    rw [pushAll_append, isOpen_push (h.coherent.pushAll past), isOpen_receive, ih, newest?_append,
      hdec, arrivals_append, arrivals_singleton]
    cases hs : s.stats.get? c with
    | some u => rfl
    | none =>
      cases hn : newest? c past with
      | some u => simp
      | none =>
        have hgetD := h.isOpen_getD c
        by_cases hp : c ∈ (m.arrivals past).map (·.channel)
        · simp [hp]
        · by_cases hd : c ∈ (m.decoded s).map (·.channel)
          · simp [hp, hd, hgetD]
          · simp [hp, hd]

/-- A channel that keeps no open lane is not awaited. -/
theorem Fresh.unawaited (h : m.Fresh) {channels : List Channel} {past : List Spill} {s : Spill}
    {c : Channel} {k : Nat}
    (hno : ((emitUpTo k (((m.withChannels channels).pushAll past).receive s)).lanes.get? c).map
      (·.isOpen) ≠ some true) :
    m.Unawaited channels (past ++ [s]) c
      (emitUpTo k (((m.withChannels channels).pushAll past).receive s)) := by
  have hw := h.withChannels channels
  have hc := hw.coherent.pushAll past
  have hopen := hw.isOpen_pushAll (past ++ [s]) c
  rw [pushAll_append, isOpen_push hc, ← isOpen_emitUpTo (hc.receive s) k] at hopen
  generalize emitUpTo k (((m.withChannels channels).pushAll past).receive s) = m₁ at hno hopen ⊢
  rw [hopen] at hno
  cases hn : newest? c (past ++ [s]) with
  | some u =>
    right
    rw [hn] at hopen hno
    obtain ⟨l, hl, hlo⟩ := Option.map_eq_some_iff.mp hopen
    have hstop : u.isStop = true := by simpa using hno
    exact ⟨l, u, hl, by rw [hlo, hstop]; rfl, hn, hstop⟩
  | none =>
    left
    rw [hn] at hopen hno
    dsimp only at hopen hno
    have hquiet : c ∉ (m.arrivals (past ++ [s])).map (·.channel) := fun hmem => hno (if_pos hmem)
    have hlanes : ((m.withChannels channels).lanes.get? c).map (·.isOpen) = none := by
      cases hl : (m.withChannels channels).lanes.get? c with
      | none => rfl
      | some l =>
        refine absurd ?_ hno
        refine (if_neg hquiet).trans ?_
        rw [hl, hw.lanes_eq c l hl]
        rfl
    refine ⟨?_, fun hmem => ?_, fun t ht hmem => ?_⟩
    · rw [← Option.map_eq_none_iff]
      exact hopen.trans ((if_neg hquiet).trans hlanes)
    · rw [isOpen_withChannels h channels hmem] at hlanes
      nomatch hlanes
    · rcases List.mem_append.mp hmem with hmem | hmem
      · obtain ⟨x, hx, hxc⟩ := List.mem_map.mp hmem
        exact hquiet (List.mem_map.mpr ⟨x, List.mem_flatMap.mpr ⟨t, ht, hx⟩, hxc⟩)
      · obtain ⟨u, hu⟩ := KeyMap.mem_keys_iff.mp hmem
        rw [newest?_eq_none hn t ht] at hu
        nomatch hu

end

/-! ## The moment at which a hit goes out -/

/-- While `s` is pushed after `past`, the merger comes to `m₁`, has emitted `before` by then, and
emits `x` next. -/
structure Picks (m : Merger) (past : List Spill) (s : Spill) (before : List Hit) (x : Hit)
    (m₁ : Merger) : Prop where
  reached : ∃ k, m₁ = emitUpTo k ((m.pushAll past).receive s)
  emitted_eq : m₁.emittedSince m = before
  picked : ∃ m₂, m₁.emit? = some m₂ ∧ m₂.emittedSince m = before ++ [x]

section

variable {m₀ m m' : Merger} {past future : List Spill} {l before after : List Hit} {x : Hit}

/-- A first part that is longer than what stands before `x` has `x` in it. -/
theorem exists_rest (h : l <+: before ++ x :: after) (hlen : ¬l.length ≤ before.length) :
    ∃ rest, l = before ++ x :: rest := by
  have hx : before ++ [x] <+: l := by
    apply List.prefix_of_prefix_length_le ⟨after, by simp⟩ h
    rw [List.length_append, List.length_singleton]
    omega
  obtain ⟨rest, rfl⟩ := hx
  exact ⟨rest, by simp⟩

/-- A hit that goes out in the course of a merge goes out at one moment of it. -/
theorem Coherent.exists_emission (hc : m.Coherent) (n : Nat)
    (he : (emitUpTo n m).emittedSince m₀ = before ++ x :: after)
    (hlen : (m.emittedSince m₀).length ≤ before.length) :
    ∃ k seq m', (emitUpTo k m).emittedSince m₀ = before ∧ (emitUpTo k m).emit? = some m' ∧
      Emission (emitUpTo k m) x seq m' := by
  induction n generalizing m with
  | zero =>
    have hlong := congrArg List.length he
    rw [emitUpTo, List.length_append, List.length_cons] at hlong
    omega
  | succ n ih =>
    rw [emitUpTo] at he
    cases hs : m.emit? with
    | none =>
      rw [hs] at he
      dsimp only at he
      have hlong := congrArg List.length he
      rw [List.length_append, List.length_cons] at hlong
      omega
    | some m₁ =>
      rw [hs] at he
      dsimp only at he
      obtain ⟨hit, seq, hem, hf⟩ := hc.toFronted.emission hs
      have hc₁ := hc.emission hem hf
      have hnext : m₁.emittedSince m₀ = m.emittedSince m₀ ++ [hit] := hem.emittedSince_eq
      by_cases hmore : (m₁.emittedSince m₀).length ≤ before.length
      · obtain ⟨k, hk⟩ := ih hc₁ he hmore
        refine ⟨k + 1, ?_⟩
        rw [emitUpTo, hs]
        exact hk
      · -- This very step emits `x`.
        have hpre : m₁.emittedSince m₀ <+: before ++ x :: after := by
          rw [← he]
          exact emittedSince_emitUpTo hc₁ n
        obtain ⟨rest, hrest⟩ := exists_rest hpre hmore
        rw [hnext] at hrest
        cases rest with
        | nil =>
          obtain ⟨hbefore, hx⟩ := List.append_inj' hrest rfl
          obtain rfl := List.singleton_inj.mp hx
          exact ⟨0, seq, m₁, hbefore, hs, hem⟩
        | cons z rest =>
          have hlong := congrArg List.length hrest
          simp only [List.length_append, List.length_cons, List.length_nil] at hlong
          omega

/-- A hit that has been emitted went out while some spill was pushed. -/
theorem Fresh.exists_picks (h : m.Fresh) {spills : List Spill}
    (he : (m.pushAll spills).emittedSince m = before ++ x :: after) :
    ∃ past s future k seq m', spills = past ++ s :: future ∧
      m.Picks past s before x (emitUpTo k ((m.pushAll past).receive s)) ∧
      Emission (emitUpTo k ((m.pushAll past).receive s)) x seq m' := by
  induction spills using List.reverseRecOn generalizing after with
  | nil =>
    have hnil : m.emittedSince m = [] := by
      simp [emittedSince, deliveredSince, handedSince, h.output_eq]
    have hsome : m.emittedSince m = before ++ x :: after := he
    rw [hnil] at hsome
    simp at hsome
  | append_singleton past s ih =>
    have ht := h.tracks_pushAll past
    have hc := h.coherent.pushAll past
    rw [pushAll_append] at he
    by_cases hlen : ((m.pushAll past).emittedSince m).length ≤ before.length
    · rw [push, emittedSince_drain ((ht.receive s).merge (hc.receive s)) (hc.receive s).merge] at he
      obtain ⟨k, seq, m', hk, hs, hem⟩ :=
        (hc.receive s).exists_emission _ he (by rw [emittedSince_receive]; exact hlen)
      refine ⟨past, s, [], k, seq, m', rfl, ⟨⟨k, rfl⟩, hk, m', hs, ?_⟩, hem⟩
      rw [hem.emittedSince_eq, hk]
    · -- The hit was out before the last push.
      have hpre : (m.pushAll past).emittedSince m <+: before ++ x :: after := by
        rw [← he]
        exact emittedSince_push ht hc s
      obtain ⟨rest, hrest⟩ := exists_rest hpre hlen
      obtain ⟨past, s', future, k, seq, m', rfl, hpicks, hem⟩ := ih hrest
      exact ⟨past, s', future ++ [s], k, seq, m', by simp, hpicks, hem⟩

/-- When a hit goes out before a smaller one, all that has arrived on the channel of the smaller one
is out already. -/
theorem Tracks.lane_of_overtaken (ht : m₀.Tracks past m) (hc : m.Coherent)
    (ho : ∀ c, (Hit.onChannel c (m₀.arrivals (past ++ future))).Pairwise
      (·.timestamp ≤ ·.timestamp))
    {seq : Nat} (hem : Emission m x seq m') {y : Hit}
    (hall : Hit.onChannel y.channel (m.emittedSince m₀ ++ after) =
      Hit.onChannel y.channel (m₀.arrivals (past ++ future)))
    (hy : y ∈ after) (hlt : ¬x.key ≤ y.key) : m.lane y.channel = [] := by
  cases hl : m.lane y.channel with
  | nil => rfl
  | cons f rest =>
    obtain ⟨hf, hlane, hfuture⟩ := ht.front_le hc ho hl
    have hxf : x.key ≤ f.1.key := hem.least _ (hc.key_mem_fronts hl)
    rw [Hit.onChannel_append, arrivals_append, Hit.onChannel_append, ← ht.fifo y.channel,
      List.append_assoc] at hall
    have hmem : y ∈ Hit.onChannel y.channel after := Hit.mem_onChannel.mpr ⟨hy, rfl⟩
    rw [List.append_cancel_left hall] at hmem
    rcases List.mem_append.mp hmem with hmem | hmem
    · obtain ⟨z, hz, rfl⟩ := List.mem_map.mp hmem
      exact absurd (Hit.Key.le_trans hxf (hlane z hz)) hlt
    · have hfy := hfuture y (Hit.mem_onChannel.mp hmem).1 rfl
      exact absurd (Hit.Key.le_trans hxf hfy) hlt

/-- With an empty lane, what has been emitted of a channel is what has arrived. -/
theorem Tracks.onChannel_emitted (ht : m₀.Tracks past m) {c : Channel} (hl : m.lane c = []) :
    Hit.onChannel c (m₀.arrivals past) = Hit.onChannel c (m.emittedSince m₀) := by
  rw [← ht.fifo c, hl, List.map_nil, List.append_nil]

/-- What the end emits is in order with all that is emitted after it. -/
theorem Tracks.close_in_order (ht : m₀.Tracks past m) (hc : m.Coherent)
    (ho : ∀ c, (Hit.onChannel c (m₀.arrivals past)).Pairwise (·.timestamp ≤ ·.timestamp))
    (he : m.close.merge.emittedSince m₀ = before ++ x :: after)
    (hlen : (m.emittedSince m₀).length ≤ before.length) {y : Hit} (hy : y ∈ after) :
    x.key ≤ y.key := by
  by_contra hlt
  have hmerge : (emitUpTo (m.close.buffered + m.close.fronts.length) m.close).emittedSince m₀ =
      before ++ x :: after := he
  obtain ⟨k, seq, m', hk, -, hem⟩ := hc.close.exists_emission _ hmerge hlen
  obtain ⟨htk, hck⟩ := hc.close.emitUpTo_induct ht.close (fun _ _ _ _ _ ht he => ht.emission he) k
  have hend : Hit.onChannel y.channel (before ++ x :: after) =
      Hit.onChannel y.channel (m₀.arrivals past) := by
    rw [← he, ← deliveredSince_finish ht hc]
    exact ht.onChannel_finish hc y.channel
  have hord : ∀ c, (Hit.onChannel c (m₀.arrivals (past ++ []))).Pairwise
      (·.timestamp ≤ ·.timestamp) := by
    rwa [List.append_nil]
  have hall : Hit.onChannel y.channel ((emitUpTo k m.close).emittedSince m₀ ++ x :: after) =
      Hit.onChannel y.channel (m₀.arrivals (past ++ [])) := by
    rw [hk, List.append_nil, hend]
  have hl : (emitUpTo k m.close).lane y.channel = [] :=
    htk.lane_of_overtaken hck hord hem hall (List.mem_cons_of_mem x hy) hlt
  -- All has arrived, so nothing of the channel is left to follow.
  rw [htk.onChannel_emitted hl, hk, Hit.onChannel_append] at hend
  have hnone := List.append_right_eq_self.mp hend
  have hmem : y ∈ Hit.onChannel y.channel (x :: after) :=
    Hit.mem_onChannel.mpr ⟨List.mem_cons_of_mem x hy, rfl⟩
  rw [hnone] at hmem
  cases hmem

end

/-! ## Whole runs -/

section

variable {m : Merger} {spills : List Spill} {before rest : List Hit} {x y : Hit}

/-- A hit that goes out before a smaller one did so in the course of a push, when the smaller one's
channel had no open lane. -/
theorem Fresh.overtaken (h : m.Fresh)
    (ho : ∀ c, (Hit.onChannel c (m.arrivals spills)).Pairwise (·.timestamp ≤ ·.timestamp))
    (he : (m.pushAll spills).finish.deliveredSince m = before ++ x :: rest) (hy : y ∈ rest)
    (hlt : ¬x.key ≤ y.key) :
    ∃ past s future k, spills = past ++ s :: future ∧
      m.Picks past s before x (emitUpTo k ((m.pushAll past).receive s)) ∧
      Hit.onChannel y.channel (m.arrivals (past ++ [s])) = Hit.onChannel y.channel before ∧
      Hit.onChannel y.channel (x :: rest) = Hit.onChannel y.channel (m.arrivals future) ∧
      ((emitUpTo k ((m.pushAll past).receive s)).lanes.get? y.channel).map (·.isOpen) ≠
        some true := by
  have ht := h.tracks_pushAll spills
  have hc := h.coherent.pushAll spills
  have hend : Hit.onChannel y.channel (before ++ x :: rest) =
      Hit.onChannel y.channel (m.arrivals spills) := by
    rw [← he]
    exact ht.onChannel_finish hc y.channel
  rw [deliveredSince_finish ht hc] at he
  by_cases hlen : ((m.pushAll spills).emittedSince m).length ≤ before.length
  · exact absurd (ht.close_in_order hc ho he hlen hy) hlt
  · -- The hit was out before the end.
    have hpre : (m.pushAll spills).emittedSince m <+: before ++ x :: rest := by
      rw [← he]
      exact emittedSince_merge hc.close
    obtain ⟨rest', hrest⟩ := exists_rest hpre hlen
    obtain ⟨past, s, future, k, seq, m', rfl, hpicks, hem⟩ := h.exists_picks hrest
    have htp := h.tracks_pushAll past
    have hcp := h.coherent.pushAll past
    have hopen : ((m.pushAll past).receive s).closed = false :=
      (receive_fields (m.pushAll past) s).2.2.2.2.1.trans (h.closed_pushAll past)
    obtain ⟨⟨htk, hclosed⟩, hck⟩ := (hcp.receive s).emitUpTo_induct
      (P := fun m' => m.Tracks (past ++ [s]) m' ∧ m'.closed = false) ⟨htp.receive s, hopen⟩
      (fun _ _ _ _ _ h he => ⟨h.1.emission he, he.closed_eq.trans h.2⟩) k
    have hcut : past ++ s :: future = past ++ [s] ++ future := by simp
    rw [hcut] at ho hend
    rw [← hpicks.emitted_eq] at hend
    have hlane := htk.lane_of_overtaken hck ho hem hend (List.mem_cons_of_mem x hy) hlt
    have hseen := htk.onChannel_emitted hlane
    refine ⟨past, s, future, k, rfl, hpicks, ?_, ?_, fun hopen => ?_⟩
    · rw [hseen, hpicks.emitted_eq]
    · rw [arrivals_append, Hit.onChannel_append, Hit.onChannel_append, hseen] at hend
      exact List.append_cancel_left hend
    · exact lane_ne_nil hem.free hclosed hopen hlane

/-- What the end emits is sorted. -/
theorem Fresh.finish_in_order (h : m.Fresh)
    (ho : ∀ c, (Hit.onChannel c (m.arrivals spills)).Pairwise (·.timestamp ≤ ·.timestamp)) :
    ∃ last, (m.pushAll spills).finish.deliveredSince m =
        (m.pushAll spills).emittedSince m ++ last ∧ last.Pairwise (·.key ≤ ·.key) := by
  have ht := h.tracks_pushAll spills
  have hc := h.coherent.pushAll spills
  have hpre : (m.pushAll spills).emittedSince m <+:
      (m.pushAll spills).close.merge.emittedSince m := emittedSince_merge hc.close
  obtain ⟨last, hlast⟩ := hpre
  refine ⟨last, by rw [deliveredSince_finish ht hc, hlast], ?_⟩
  apply List.pairwise_of_forall_sublist
  intro x y hxy
  obtain ⟨l₁, l₂, rfl, hx, hy⟩ := List.cons_sublist_iff.mp hxy
  obtain ⟨b, a, rfl⟩ := List.append_of_mem hx
  have hsplit : (m.pushAll spills).close.merge.emittedSince m =
      ((m.pushAll spills).emittedSince m ++ b) ++ x :: (a ++ l₂) := by
    rw [← hlast]
    simp
  apply ht.close_in_order hc ho hsplit
  · rw [List.length_append]
    omega
  · exact List.mem_append_right a (List.singleton_sublist.mp hy)

end

/-- A hit is delivered before a smaller one only if, when it was emitted, the smaller one had not
been pushed yet and nobody waited for the smaller one's channel: it was neither declared nor heard
of, or the newest statistics pushed for it were a stop. At that time all that had been pushed on the
channel was out, and what is delivered on it from then on arrived with later spills. Among the hits
that the end emits there are no such pairs. -/
theorem overtaken_was_unawaited {m : Merger} (hm : m.Fresh) (channels : List Channel)
    {spills : List Spill}
    (ho : ∀ c, (Hit.onChannel c (m.arrivals spills)).Pairwise (·.timestamp ≤ ·.timestamp)) :
    (∀ finished before x between y after,
      ((m.withChannels channels).ran spills finished).deliveredSince m =
        before ++ x :: between ++ y :: after →
      compare y.key x.key = .lt →
      ∃ past s future m₁, spills = past ++ s :: future ∧
        (m.withChannels channels).Picks past s before x m₁ ∧
        Hit.onChannel y.channel (m.arrivals (past ++ [s])) = Hit.onChannel y.channel before ∧
        Hit.onChannel y.channel (x :: between ++ y :: after) <+:
          Hit.onChannel y.channel (m.arrivals future) ∧
        m.Unawaited channels (past ++ [s]) y.channel m₁) ∧
    ∃ last, ((m.withChannels channels).pushAll spills).finish.deliveredSince m =
        ((m.withChannels channels).pushAll spills).emittedSince m ++ last ∧
      last.Pairwise (·.key ≤ ·.key) := by
  have hw := hm.withChannels channels
  refine ⟨?_, hw.finish_in_order ho⟩
  intro finished before x between y after hdelivered hlt
  have hnot : ¬x.key ≤ y.key := by
    have hswap : compare x.key y.key = (compare y.key x.key).swap := Std.OrientedCmp.eq_swap
    rw [Hit.Key.le_iff, hswap, hlt]
    decide
  -- Later spills and the end only append to what has been delivered.
  have hpre : ((m.withChannels channels).ran spills finished).deliveredSince m <+:
      ((m.withChannels channels).pushAll spills).finish.deliveredSince m := by
    cases finished with
    | true => exact List.prefix_refl _
    | false =>
      have hmore := hw.deliveredSince_initial spills []
      rw [List.append_nil] at hmore
      exact hmore
  obtain ⟨more, hmore⟩ := hpre
  rw [hdelivered] at hmore
  have hall : ((m.withChannels channels).pushAll spills).finish.deliveredSince m =
      before ++ x :: (between ++ y :: after ++ more) := by
    rw [← hmore]
    simp
  obtain ⟨past, s, future, k, hs, hpicks, hout, hlate, hno⟩ :=
    hw.overtaken ho hall (by simp) hnot
  refine ⟨past, s, future, _, hs, hpicks, hout, ?_, hm.unawaited hno⟩
  have hmine : Hit.onChannel y.channel (x :: (between ++ y :: after ++ more)) =
      Hit.onChannel y.channel (m.arrivals future) := hlate
  rw [← hmine]
  exact (List.prefix_append (x :: between ++ y :: after) more).filter _

/-- A channel that delivers after its stop, and one that nobody has heard of: both are overtaken by
the same hit, and the end delivers them in order. -/
theorem overtaken_was_unawaited_late :
    let a (t : UInt64) : Hit := ⟨0, t, 7, .empty⟩
    let b (t : UInt64) : Hit := ⟨1, t, 9, .pileup⟩
    let c (t : UInt64) : Hit := ⟨2, t, 5, .empty⟩
    let m := new .empty
    let spills : List Spill := [
      (Spill.events "right" [b 5]).withStats (.new 0.0 1 .stop ⟨0, 0⟩), .events "left" [a 20],
      .events "right" [b 10, c 7]]
    m.Fresh ∧
      (∀ ch, (Hit.onChannel ch (m.arrivals spills)).Pairwise (·.timestamp ≤ ·.timestamp)) ∧
      ((m.withChannels [0, 1]).ran spills true).deliveredSince m = [b 5, a 20, c 7, b 10] ∧
      (∃ past s m₁, (m.withChannels [0, 1]).Picks past s [b 5] (a 20) m₁ ∧
        m.Unawaited [0, 1] (past ++ [s]) 1 m₁) ∧
      ∃ past s m₁, (m.withChannels [0, 1]).Picks past s [b 5] (a 20) m₁ ∧
        m.Unawaited [0, 1] (past ++ [s]) 2 m₁ := by
  intro a b c m spills
  have hm : m.Fresh := fresh_new .empty
  have ho : (m.arrivals spills).Pairwise fun h h' => h.channel = h'.channel →
      h.timestamp ≤ h'.timestamp := by decide
  have hordered : ∀ ch, (Hit.onChannel ch (m.arrivals spills)).Pairwise
      (·.timestamp ≤ ·.timestamp) := by
    refine fun ch => List.pairwise_filter.mpr (ho.imp fun h hc hc' => ?_)
    simp only [decide_eq_true_eq] at hc hc'
    exact h (hc.trans hc'.symm)
  have hall : ((m.withChannels [0, 1]).ran spills true).deliveredSince m =
      [b 5, a 20, c 7, b 10] := by decide +kernel
  obtain ⟨hlate, -⟩ := overtaken_was_unawaited hm [0, 1] hordered
  obtain ⟨past, s, -, m₁, -, hpicks, -, -, hstopped⟩ := hlate true [b 5] (a 20) [c 7] (b 10) [] hall
    (by decide)
  obtain ⟨past', s', -, m₁', -, hpicks', -, -, hunknown⟩ := hlate true [b 5] (a 20) [] (c 7) [b 10]
    hall (by decide)
  exact ⟨hm, hordered, hall, ⟨past, s, m₁, hpicks, hstopped⟩, past', s', m₁', hpicks', hunknown⟩

end ListMode.Merger
