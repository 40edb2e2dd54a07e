import ListMode.Proofs.Merger.Lanes

/-!
# Receiving a spill

A spill's hits go to the back of their lanes under the spill's number, and its statistics then open
or close lanes without touching a hit.
-/

namespace ListMode.Merger

/-! ## Buffering hits -/

section

variable {m : Merger} {seq : Nat}

theorem hits_getD (lanes : KeyMap Channel Lane) (c : Channel) :
    ((lanes.get? c).getD .new).hits = hitsAt lanes c := by
  cases hl : lanes.get? c <;> simp [hitsAt, hl, Lane.new]

theorem bufferHit_eq (hit : Hit) :
    bufferHit seq m hit = { m with
      fronts := if (m.lane hit.channel).isEmpty then insertFront hit.key m.fronts else m.fronts
      lanes := m.lanes.insert hit.channel
        ⟨m.lane hit.channel ++ [(hit, seq)], ((m.lanes.get? hit.channel).getD .new).isOpen⟩ } := by
  rw [bufferHit, hits_getD]
  rfl

theorem lane_bufferHit (hit : Hit) (c : Channel) :
    (bufferHit seq m hit).lane c = m.lane c ++ (Hit.onChannel c [hit]).map (·, seq) := by
  rw [bufferHit_eq, lane, hitsAt_insert, Hit.onChannel_cons]
  split
  · rename_i hc
    subst hc
    rfl
  · simp [lane]

theorem laned_bufferHit (hit : Hit) :
    (laned (bufferHit seq m hit).lanes).Perm (laned m.lanes ++ [(hit, seq)]) := by
  rw [bufferHit_eq]
  obtain ⟨others, hold, hnew⟩ := laned_alter m.lanes hit.channel fun _ =>
    ⟨m.lane hit.channel ++ [(hit, seq)], ((m.lanes.get? hit.channel).getD .new).isOpen⟩
  refine hnew.trans (List.Perm.trans ?_ (hold.symm.append_right _))
  rw [lane, List.append_assoc, List.append_assoc]
  exact List.perm_append_comm.append_left _

theorem fronted_bufferHit (h : m.Fronted) (hit : Hit) : (bufferHit seq m hit).Fronted := by
  refine ⟨?_, ?_, ?_⟩
  · intro c x hx
    rw [lane_bufferHit] at hx
    rcases List.mem_append.mp hx with hx | hx
    · exact h.channel_eq c x hx
    · obtain ⟨y, hy, rfl⟩ := List.mem_map.mp hx
      exact (Hit.mem_onChannel.mp hy).2
  · rw [bufferHit_eq]
    obtain ⟨others, hold, hnew⟩ := frontsOf_alter m.lanes hit.channel fun _ =>
      ⟨m.lane hit.channel ++ [(hit, seq)], ((m.lanes.get? hit.channel).getD .new).isOpen⟩
    refine List.Perm.trans ?_ hnew.symm
    rw [← lane] at hold
    cases hl : m.lane hit.channel with
    | nil =>
      rw [hl] at hold
      exact (insertFront_perm _ _).trans ((h.fronts_perm.trans hold).cons _)
    | cons x rest =>
      rw [hl] at hold
      exact h.fronts_perm.trans hold
  · rw [bufferHit_eq]
    dsimp only
    split
    · exact insertFront_sorted h.fronts_sorted
    · exact h.fronts_sorted

/-- A hit opens a lane for its channel if there is none. -/
theorem isOpen_bufferHit (hit : Hit) (c : Channel) :
    ((bufferHit seq m hit).lanes.get? c).map (·.isOpen) =
      if hit.channel = c then some (((m.lanes.get? c).map (·.isOpen)).getD true)
      else (m.lanes.get? c).map (·.isOpen) := by
  refine (congrArg _ (KeyMap.get?_insert m.lanes hit.channel c _)).trans ?_
  split
  · rename_i hc
    subst hc
    cases hl : m.lanes.get? hit.channel <;> simp [Lane.new]
  · rfl

end

/-- The hits of one spill, buffered one after the other. -/
def bufferAll (m : Merger) (seq : Nat) (hits : List Hit) : Merger := hits.foldl (bufferHit seq) m

theorem bufferAll_cons (m : Merger) (seq : Nat) (hit : Hit) (hits : List Hit) :
    m.bufferAll seq (hit :: hits) = (bufferHit seq m hit).bufferAll seq hits := rfl

theorem bufferAll_eq (m : Merger) (seq : Nat) (hits : List Hit) :
    ∃ lanes fronts, m.bufferAll seq hits = { m with lanes, fronts } := by
  induction hits generalizing m with
  | nil => exact ⟨m.lanes, m.fronts, rfl⟩
  | cons hit hits ih =>
    obtain ⟨lanes, fronts, h⟩ := ih (bufferHit seq m hit)
    exact ⟨lanes, fronts, h⟩

theorem lane_bufferAll (m : Merger) (seq : Nat) (hits : List Hit) (c : Channel) :
    (m.bufferAll seq hits).lane c = m.lane c ++ (Hit.onChannel c hits).map (·, seq) := by
  induction hits generalizing m with
  | nil => simp [bufferAll]
  | cons hit hits ih =>
    rw [bufferAll_cons, ih, lane_bufferHit, List.append_assoc, ← List.map_append,
      ← Hit.onChannel_append, List.singleton_append]

theorem laned_bufferAll (m : Merger) (seq : Nat) (hits : List Hit) :
    (laned (m.bufferAll seq hits).lanes).Perm (laned m.lanes ++ hits.map (·, seq)) := by
  induction hits generalizing m with
  | nil => simp [bufferAll]
  | cons hit hits ih =>
    refine (ih _).trans (((laned_bufferHit hit).append_right _).trans ?_)
    rw [List.append_assoc]
    exact .refl _

theorem fronted_bufferAll {m : Merger} (h : m.Fronted) (seq : Nat) (hits : List Hit) :
    (m.bufferAll seq hits).Fronted := by
  induction hits generalizing m with
  | nil => exact h
  | cons hit hits ih => exact ih (fronted_bufferHit h hit)

theorem isOpen_bufferAll (m : Merger) (seq : Nat) (hits : List Hit) (c : Channel) :
    ((m.bufferAll seq hits).lanes.get? c).map (·.isOpen) =
      if c ∈ hits.map (·.channel) then some (((m.lanes.get? c).map (·.isOpen)).getD true)
      else (m.lanes.get? c).map (·.isOpen) := by
  induction hits generalizing m with
  | nil => simp [bufferAll]
  | cons hit hits ih =>
    rw [bufferAll_cons, ih, isOpen_bufferHit]
    by_cases hc : hit.channel = c
    · subst hc
      by_cases hm : hit.channel ∈ hits.map (·.channel) <;> simp [hm]
    · by_cases hm : c ∈ hits.map (·.channel) <;> simp [hc, Ne.symm hc, hm]

/-! ## Applying statistics -/

/-- Lanes after the statistics of a spill. -/
def applyAll (lanes : KeyMap Channel Lane) (stats : List (Channel × Snapshot Float)) :
    KeyMap Channel Lane := stats.foldl applyStats lanes

theorem hitsAt_applyStats (lanes : KeyMap Channel Lane) (e : Channel × Snapshot Float)
    (c : Channel) :
    hitsAt (applyStats lanes e) c = hitsAt lanes c := by
  rw [applyStats, hitsAt_alter]
  split
  · rename_i hc
    subst hc
    exact hits_getD lanes e.1
  · rfl

theorem laned_applyStats (lanes : KeyMap Channel Lane) (e : Channel × Snapshot Float) :
    (laned (applyStats lanes e)).Perm (laned lanes) := by
  obtain ⟨others, hold, hnew⟩ := laned_alter lanes e.1 fun lane =>
    { lane.getD .new with isOpen := !e.2.isStop }
  dsimp only at hnew
  rw [hits_getD] at hnew
  exact hnew.trans hold.symm

theorem frontsOf_applyStats (lanes : KeyMap Channel Lane) (e : Channel × Snapshot Float) :
    (frontsOf (applyStats lanes e)).Perm (frontsOf lanes) := by
  obtain ⟨others, hold, hnew⟩ := frontsOf_alter lanes e.1 fun lane =>
    { lane.getD .new with isOpen := !e.2.isStop }
  dsimp only at hnew
  rw [hits_getD] at hnew
  exact hnew.trans hold.symm

theorem hitsAt_applyAll (lanes : KeyMap Channel Lane) (stats : List (Channel × Snapshot Float))
    (c : Channel) : hitsAt (applyAll lanes stats) c = hitsAt lanes c := by
  induction stats generalizing lanes with
  | nil => rfl
  | cons e rest ih => exact (ih _).trans (hitsAt_applyStats lanes e c)

theorem laned_applyAll (lanes : KeyMap Channel Lane) (stats : List (Channel × Snapshot Float)) :
    (laned (applyAll lanes stats)).Perm (laned lanes) := by
  induction stats generalizing lanes with
  | nil => exact .refl _
  | cons e rest ih => exact (ih _).trans (laned_applyStats lanes e)

theorem frontsOf_applyAll (lanes : KeyMap Channel Lane) (stats : List (Channel × Snapshot Float)) :
    (frontsOf (applyAll lanes stats)).Perm (frontsOf lanes) := by
  induction stats generalizing lanes with
  | nil => exact .refl _
  | cons e rest ih => exact (ih _).trans (frontsOf_applyStats lanes e)

/-- A lane is open or closed as the newest statistics of its channel say. -/
theorem isOpen_applyAll (lanes : KeyMap Channel Lane) {stats : List (Channel × Snapshot Float)}
    (hs : stats.Pairwise fun a b => compare a.1 b.1 = .lt) (c : Channel) :
    ((applyAll lanes stats).get? c).map (·.isOpen) =
      match KeyMap.lookup c stats with
      | some u => some !u.isStop
      | none => (lanes.get? c).map (·.isOpen) := by
  induction stats generalizing lanes with
  | nil => rfl
  | cons e rest ih =>
    obtain ⟨c', u⟩ := e
    obtain ⟨hlt, hrest⟩ := List.pairwise_cons.mp hs
    refine (ih (applyStats lanes (c', u)) hrest).trans ?_
    by_cases hc : compare c c' = .eq
    · obtain rfl : c = c' := Std.LawfulEqOrd.eq_of_compare hc
      rw [KeyMap.lookup_eq_none_of_lt hlt]
      simp [KeyMap.lookup, applyStats, KeyMap.get?_alter]
    · have hne : c' ≠ c := fun h => hc (h ▸ Std.ReflOrd.compare_self)
      simp only [KeyMap.lookup, hc, if_false]
      rw [applyStats, KeyMap.get?_alter, if_neg hne]

/-! ## The whole reception -/

/-- Hits of a spill as the merger decodes it. -/
def decoded (m : Merger) (s : Spill) : List Hit := (m.decode s).1

/-- What is in flight of a spill that has just been received. -/
def entry (m : Merger) (s : Spill) : InFlight where
  spill := { s with payload := .events [] }
  remaining := (m.decoded s).length
  channels := (m.decoded s).map (·.channel) ++ s.stats.keys

theorem decode_congr {m m' : Merger} (h : m'.decoders = m.decoders) (s : Spill) :
    m'.decode s = m.decode s := by
  unfold decode
  rw [h]

theorem decoded_congr {m m' : Merger} (h : m'.decoders = m.decoders) (s : Spill) :
    m'.decoded s = m.decoded s := congrArg Prod.fst (decode_congr h s)

/-- `m` with one more spill counted. -/
def counting (m : Merger) (s : Spill) : Merger :=
  { m with
    nextSeq := m.nextSeq + 1
    report := { m.report with
      spillsIn := m.report.spillsIn + 1
      decodeErrors := m.report.decodeErrors + (m.decode s).2 } }

theorem receive_eq (m : Merger) (s : Spill) :
    m.receive s =
      { (m.counting s).bufferAll m.nextSeq (m.decoded s) with
        lanes := applyAll ((m.counting s).bufferAll m.nextSeq (m.decoded s)).lanes s.stats.entries
        inFlight := ((m.counting s).bufferAll m.nextSeq (m.decoded s)).inFlight.insert m.nextSeq
          (m.entry s) } := rfl

section

variable (m : Merger) (s : Spill)

theorem receive_fields : (m.receive s).sink = m.sink ∧ (m.receive s).decoders = m.decoders ∧
    (m.receive s).nextSeq = m.nextSeq + 1 ∧ (m.receive s).output = m.output ∧
    (m.receive s).closed = m.closed ∧ (m.receive s).report = (m.counting s).report ∧
    (m.receive s).inFlight = m.inFlight.insert m.nextSeq (m.entry s) := by
  obtain ⟨lanes, fronts, h⟩ := bufferAll_eq (m.counting s) m.nextSeq (m.decoded s)
  rw [receive_eq, h]
  exact ⟨rfl, rfl, rfl, rfl, rfl, rfl, rfl⟩

theorem lane_receive (c : Channel) :
    (m.receive s).lane c = m.lane c ++ (Hit.onChannel c (m.decoded s)).map (·, m.nextSeq) := by
  rw [receive_eq, lane, hitsAt_applyAll]
  exact lane_bufferAll (m.counting s) m.nextSeq (m.decoded s) c

theorem laned_receive :
    (laned (m.receive s).lanes).Perm (laned m.lanes ++ (m.decoded s).map (·, m.nextSeq)) := by
  rw [receive_eq]
  exact (laned_applyAll _ _).trans (laned_bufferAll (m.counting s) m.nextSeq (m.decoded s))

theorem fronted_receive {m : Merger} (h : m.Fronted) (s : Spill) : (m.receive s).Fronted := by
  have hc : (m.counting s).Fronted := ⟨h.channel_eq, h.fronts_perm, h.fronts_sorted⟩
  have hb := fronted_bufferAll hc m.nextSeq (m.decoded s)
  rw [receive_eq]
  refine ⟨?_, hb.fronts_perm.trans (frontsOf_applyAll _ _).symm, hb.fronts_sorted⟩
  intro c x hx
  rw [lane, hitsAt_applyAll] at hx
  exact hb.channel_eq c x hx

/-- After a reception a lane is open or closed as the spill's statistics say, and without statistics
as before; a new lane is open. -/
theorem isOpen_receive (c : Channel) :
    ((m.receive s).lanes.get? c).map (·.isOpen) =
      match s.stats.get? c with
      | some u => some !u.isStop
      | none =>
        if c ∈ (m.decoded s).map (·.channel) then some (((m.lanes.get? c).map (·.isOpen)).getD true)
        else (m.lanes.get? c).map (·.isOpen) := by
  rw [receive_eq]
  refine (isOpen_applyAll _ s.stats.sorted c).trans ?_
  rw [isOpen_bufferAll]
  rfl

end

end ListMode.Merger
