import ListMode.Proofs.Session.Restoration

/-!
# Producers that differ in their settings

What a digitizer or a replay does from its start to its end, it does by the task that was started.
So two of them with the same tasks do the same, whatever their settings and their status are, until
they are started again.
-/

namespace ListMode

/-! ## Related options -/

section

variable {α β γ δ : Type} {R : α → β → Prop} {S : γ → δ → Prop} {x : Option α} {y : Option β}

theorem rel_cases (hxy : Option.Rel R x y) :
    x = none ∧ y = none ∨ ∃ a b, x = some a ∧ y = some b ∧ R a b := by
  cases hxy with
  | none => exact .inl ⟨rfl, rfl⟩
  | some hab => exact .inr ⟨_, _, rfl, rfl, hab⟩

theorem rel_mono {T : α → β → Prop} (hxy : Option.Rel R x y) (hmono : ∀ a b, R a b → T a b) :
    Option.Rel T x y := by
  cases hxy with
  | none => exact .none
  | some hab => exact .some (hmono _ _ hab)

theorem rel_of_map {f : α → γ} {x y : Option α} (h : y.map f = x.map f) :
    Option.Rel (fun a b => f b = f a) x y := by
  cases x with
  | none =>
    rw [Option.map_eq_none_iff.mp h]
    exact .none
  | some a =>
    obtain ⟨b, rfl, hab⟩ := Option.map_eq_some_iff.mp h
    exact .some hab

theorem rel_getElem? {f : α → γ} {l l' : List α} (h : l'.map f = l.map f) (i : Nat) :
    Option.Rel (fun a b => f b = f a) l[i]? l'[i]? :=
  rel_of_map (by rw [← List.getElem?_map, h, List.getElem?_map])

theorem rel_bind {g : α → Option γ} {h : β → Option δ} (hxy : Option.Rel R x y)
    (hgh : ∀ a b, R a b → Option.Rel S (g a) (h b)) : Option.Rel S (x.bind g) (y.bind h) := by
  cases hxy with
  | none => exact .none
  | some hab => exact hgh _ _ hab

theorem rel_map {g : α → γ} {h : β → δ} (hxy : Option.Rel R x y)
    (hgh : ∀ a b, R a b → S (g a) (h b)) : Option.Rel S (x.map g) (y.map h) := by
  cases hxy with
  | none => exact .none
  | some hab => exact .some (hgh _ _ hab)

theorem rel_getD {a : α} {b : β} (hxy : Option.Rel R x y) (hab : R a b) :
    R (x.getD a) (y.getD b) := by
  cases hxy with
  | none => exact hab
  | some h => exact h

end

namespace Producer

/-- Digitizers or replays that do the same until they are started or asked for their settings. -/
structure Alike (p p' : Producer) : Prop where
  id_eq : p'.id = p.id
  slot_eq : p'.slot = p.slot
  real : ∀ x, p.device ≠ .scripted x
  real' : ∀ x, p'.device ≠ .scripted x

section

variable {p p' : Producer} {time : Nat} {now : Instant} {op : Operation}

/-- The slot holds a task that is believed to be alive. -/
def isOccupied (p : Producer) : Bool := p.slot.held.isSome && p.slot.alive

/-- The same is handed over, and the producers stay alike, the first under its identifier. -/
def Stays (p : Producer) (x y : List Delivery × Producer) : Prop :=
  y.1 = x.1 ∧ x.2.Alike y.2 ∧ x.2.id = p.id

theorem Stays.trans {x y : List Delivery × Producer} {z w : List Delivery × Producer}
    (h : p.Stays x y) (h' : x.2.Stays z w) : p.Stays (x.1 ++ z.1, z.2) (y.1 ++ w.1, w.2) :=
  ⟨by rw [h.1, h'.1], h'.2.1, h'.2.2.trans h.2.2⟩

theorem Alike.refl (hreal : ∀ x, p.device ≠ .scripted x) : p.Alike p := ⟨rfl, rfl, hreal, hreal⟩

theorem Alike.symm (h : p.Alike p') : p'.Alike p :=
  ⟨h.id_eq.symm, h.slot_eq.symm, h.real', h.real⟩

theorem Alike.withSlot (h : p.Alike p') (slot : Polling.Slot Acquisition) :
    Alike { p with slot } { p' with slot } := ⟨h.id_eq, rfl, h.real, h.real'⟩

theorem Alike.isRunning_eq (h : p.Alike p') : p'.isRunning = p.isRunning := by
  rw [Producer.isRunning_eq h.real, Producer.isRunning_eq h.real', h.slot_eq]

theorem Alike.boot (h : p.Alike p') : p.boot.2.Alike p'.boot.2 ∧ p.boot.2.id = p.id := by
  obtain ⟨status, hboot⟩ := boot_eq p
  obtain ⟨status', hboot'⟩ := boot_eq p'
  rw [hboot, hboot']
  exact ⟨⟨h.id_eq, h.slot_eq, h.real, h.real'⟩, rfl⟩

/-- A write to one of them leaves them alike. -/
theorem Alike.written (h : p.Alike p') (t : Tree) : p.Alike (p'.write t).2 := by
  obtain ⟨device, hwrite, hreal⟩ := write_eq p' t
  rw [hwrite]
  exact ⟨h.id_eq, h.slot_eq, h.real, hreal h.real'⟩

theorem Alike.write (h : p.Alike p') (t : Tree) :
    (p.write t).2.Alike (p'.write t).2 ∧ (p.write t).2.id = p.id :=
  ⟨((h.symm.written t).symm).written t, ((Alike.refl h.real).written t).id_eq⟩

theorem Alike.beginStop (h : p.Alike p') (time : Nat) :
    (p'.beginStop time).1 = (p.beginStop time).1 ∧
      p.Stays (p.beginStop time).2 (p'.beginStop time).2 := by
  rw [beginStop_eq h.real, beginStop_eq h.real', h.slot_eq]
  exact ⟨rfl, rfl, h.withSlot _, rfl⟩

theorem Alike.endStop (h : p.Alike p') (time : Nat) (stopping : Stopping) :
    Option.Rel (fun x y => y.1 = x.1 ∧ p.Stays x.2 y.2) (p.endStop? time stopping)
      (p'.endStop? time stopping) := by
  cases stopping with
  | complete wasRunning => exact .some ⟨rfl, rfl, h, rfl⟩
  | task request =>
    unfold endStop?
    dsimp only
    rw [h.slot_eq]
    cases p.slot.endStop? request with
    | none => exact .none
    | some x => exact .some ⟨rfl, rfl, h.withSlot x.2, rfl⟩
  | delay wake =>
    have hreal : ∀ {q : Producer}, (∀ x, q.device ≠ .scripted x) →
        q.endStop? time (.delay wake) = if wake ≤ time then some (false, [], q) else none := by
      intro q hreal
      unfold endStop?
      dsimp only
      split
      · split
        · rename_i x hx
          exact absurd hx (hreal x)
        · rfl
      · rfl
    rw [hreal h.real, hreal h.real']
    split
    · exact .some ⟨rfl, rfl, h, rfl⟩
    · exact .none

theorem Alike.tick (h : p.Alike p') (n time : Nat) (now : Instant) :
    Option.Rel p.Stays (p.tick? n time now) (p'.tick? n time now) := by
  unfold tick?
  rw [h.slot_eq]
  cases p.slot.task? n with
  | none => exact .none
  | some t =>
    rw [Option.map_some, Option.map_some]
    refine .some ?_
    split
    · exact ⟨rfl, h.withSlot _, rfl⟩
    · exact ⟨rfl, h.withSlot _, rfl⟩

theorem Alike.notice (h : p.Alike p') (n time : Nat) (now : Instant) :
    Option.Rel p.Stays (p.notice? n time now) (p'.notice? n time now) := by
  unfold notice?
  rw [h.slot_eq]
  cases p.slot.task? n with
  | none => exact .none
  | some t =>
    dsimp only
    split
    · exact .some ⟨rfl, h.withSlot _, rfl⟩
    · exact .none

theorem Alike.stop (h : p.Alike p') (time : Nat) (now : Instant) :
    p.Stays (p.stop time now).2 (p'.stop time now).2 := by
  obtain ⟨hstopping, hfirst⟩ := h.beginStop time
  unfold Producer.stop
  generalize p.beginStop time = begun at hstopping hfirst
  generalize p'.beginStop time = begun' at hstopping hfirst
  obtain ⟨stopping, first, q⟩ := begun
  obtain ⟨stopping', first', q'⟩ := begun'
  obtain rfl : stopping' = stopping := hstopping
  have hq : q.Alike q' := hfirst.2.1
  have hstay : q.Stays ([], q) ([], q') := ⟨rfl, hq, rfl⟩
  cases stopping' with
  | complete wasRunning => exact (hfirst.trans hstay).trans hstay
  | task request =>
    -- The task that is waited for may see the request before the stop is complete.
    have hlast : q.Stays ((q.notice? request.number time now).getD ([], q))
        ((q'.notice? request.number time now).getD ([], q')) :=
      rel_getD (hq.notice _ _ _) ⟨rfl, hq, rfl⟩
    dsimp only
    generalize (q.notice? request.number time now).getD ([], q) = last at hlast ⊢
    generalize (q'.notice? request.number time now).getD ([], q') = last' at hlast ⊢
    have hend := hlast.2.1.endStop time (.task request)
    generalize last.2.endStop? time (.task request) = finished at hend ⊢
    generalize last'.2.endStop? time (.task request) = finished' at hend ⊢
    cases hend with
    | none => exact hfirst.trans hlast
    | some hxy => exact (hfirst.trans hlast).trans hxy.2
  | delay wake =>
    have hend := hq.endStop wake (.delay wake)
    dsimp only
    generalize q.endStop? wake (.delay wake) = finished at hend ⊢
    generalize q'.endStop? wake (.delay wake) = finished' at hend ⊢
    cases hend with
    | none => exact hfirst.trans hstay
    | some hxy => exact (hfirst.trans hstay).trans hxy.2

theorem Alike.shutdown (h : p.Alike p') (time : Nat) (now : Instant) :
    p.Stays (p.shutdown time now).2 (p'.shutdown time now).2 := by
  obtain ⟨hhanded, hstopped, hid⟩ := h.stop time now
  rw [shutdown_eq h.real, shutdown_eq h.real']
  exact ⟨hhanded, ⟨hstopped.id_eq, hstopped.slot_eq, hstopped.real, hstopped.real'⟩, hid⟩

/-- No operation but a start depends on what is different. -/
theorem Alike.operate (h : p.Alike p') (time : Nat) (now : Instant)
    (hstart : ∀ l, op ≠ .start l) :
    Option.Rel p.Stays (p.operate? time now op) (p'.operate? time now op) := by
  cases op with
  | boot => exact .some ⟨rfl, h.boot⟩
  | start l => exact absurd rfl (hstart l)
  | ask => exact .some (h.beginStop time).2
  | await stopping => exact rel_map (h.endStop time stopping) fun _ _ hxy => hxy.2
  | tick k => exact h.tick k time now
  | notice k => exact h.notice k time now
  | shutdown => exact .some (h.shutdown time now)
  | write settings => exact .some ⟨rfl, h.write settings⟩

/-- A start is refused as long as the slot holds a task that is believed to be alive. -/
theorem start_occupied (hreal : ∀ x, p.device ≠ .scripted x) (hoccupied : p.isOccupied = true)
    (l : Launch) : p.start l = (false, [], p) := by
  rcases start_eq hreal l with ⟨-, hrefused⟩ | ⟨-, work, hstart⟩
  · exact hrefused
  · have hslot : p.slot.start ⟨l.queue, l.time, work⟩ = (false, p.slot) := if_pos hoccupied
    rw [hstart, hslot]

theorem start_real (hreal : ∀ x, p.device ≠ .scripted x) (l : Launch) :
    ∀ x, (p.start l).2.2.device ≠ .scripted x := by
  rcases start_eq hreal l with ⟨-, hstart⟩ | ⟨-, work, hstart⟩
  · rw [hstart]
    exact hreal
  · rw [hstart]
    exact hreal

end

end Producer

end ListMode
