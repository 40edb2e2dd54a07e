import Mathlib.Data.List.Forall2
import ListMode.Proofs.Merger.DrainOrder

/-!
# Metadata is handed over exactly once

At the end of a run the numbers in the log are those of the pushed spills, each once. What the sink
received is the log without the parcels that have nothing in them, so each delivery stems from a
spill of its own, and a spill with metadata has one.
-/

namespace ListMode

/-- The spill says something beside its hits. -/
def Spill.hasMetadata (s : Spill) : Bool :=
  !s.stats.isEmpty || s.run.isSome || s.detectors.isSome

namespace Merger

/-- Delivery `d` tells what spill `s` says beside its hits. It carries hits if that is nothing. -/
structure Tells (s d : Spill) : Prop where
  source_eq : d.source = none
  decoded : d.payload.isRaw = false
  not_empty : d.isEmpty = false
  stats_eq : d.stats = s.stats
  detectors_eq : d.detectors = s.detectors
  run_eq : ∃ n, d.run = s.run.map (stamp n)
  hits_ne : s.hasMetadata = false → d.hits ≠ []

section

variable {m₀ m : Merger} {past : List Spill} {log : List Departure}

/-- Departures that hand something over. -/
def telling (log : List Departure) : List Departure := log.filter (!·.parcel.isEmpty)

theorem Logged.handed_telling (h : m₀.Logged past log m) :
    m.handedSince m₀ = (telling log).map (·.parcel) := by
  rw [h.handed_eq, List.filter_map]
  rfl

theorem Departs.isEmpty_eq {before : List Departure} {d : Departure} {s : Spill}
    (h : m₀.Departs past before d s) :
    d.parcel.isEmpty = (d.parcel.hits.isEmpty && !s.hasMetadata) := by
  obtain ⟨-, hparcel, -, -⟩ := h
  rw [hparcel]
  cases hr : s.run <;> cases hd : s.detectors <;>
    simp [Spill.isEmpty, Payload.isEmpty, Spill.hits, Payload.hits, Spill.hasMetadata, hr, hd]

theorem Departs.tells {before : List Departure} {d : Departure} {s : Spill}
    (h : m₀.Departs past before d s) (hne : d.parcel.isEmpty = false) : Tells s d.parcel := by
  have hempty := h.isEmpty_eq
  obtain ⟨-, hparcel, -, -⟩ := h
  refine ⟨?_, ?_, hne, ?_, ?_, ⟨(Departure.hits (before ++ [d])).length, ?_⟩, ?_⟩
  · rw [hparcel]
  · rw [hparcel]
    rfl
  · rw [hparcel]
  · rw [hparcel]
  · rw [hparcel]
  · intro hmeta hnil
    rw [hnil, hmeta, hne] at hempty
    nomatch hempty

end

/-- Every spill that carries statistics, a boundary or detectors is the origin of exactly one
delivery, which carries them; another spill is the origin of at most one, which carries hits. There
are no other deliveries, whatever could not be decoded. -/
theorem metadata_handed_over_once {m : Merger} (hm : m.Fresh) (spills : List Spill) :
    ∃ origins : List Nat, origins.Nodup ∧
      List.Forall₂ (fun i d => ∃ s, spills[i]? = some s ∧ Tells s d) origins
        ((m.pushAll spills).finish.handedSince m) ∧
      ∀ i s, spills[i]? = some s → s.hasMetadata = true → i ∈ origins := by
  have hl : m.Logged spills (m.log spills true) (m.pushAll spills).finish :=
    hm.logged_ran spills true
  have hgone : (m.pushAll spills).finish.inFlight.keys = [] := hm.inFlight_ran spills
  refine ⟨(telling (m.log spills true)).map (·.seq), ?_, ?_, ?_⟩
  · exact hl.nodup.sublist (List.filter_sublist.map _)
  · rw [hl.handed_telling, List.forall₂_map_left_iff, List.forall₂_map_right_iff,
      List.forall₂_same]
    intro d hd
    obtain ⟨hd, hne⟩ := List.mem_filter.mp hd
    obtain ⟨_, s, hs⟩ := hl.mem_log hd
    exact ⟨s, hs.spill_eq, hs.tells (by simpa using hne)⟩
  · intro i s hi hmeta
    have hlt := (List.getElem?_eq_some_iff.mp hi).1
    obtain ⟨d, hd, rfl⟩ := List.mem_map.mp (hl.left hgone hlt)
    obtain ⟨_, t, ht⟩ := hl.mem_log hd
    obtain rfl : s = t := Option.some.inj (hi.symm.trans ht.spill_eq)
    have hne : d.parcel.isEmpty = false := by
      rw [ht.isEmpty_eq, hmeta, Bool.not_true, Bool.and_false]
    exact List.mem_map.mpr ⟨d, List.mem_filter.mpr ⟨hd, by simp [hne]⟩, rfl⟩

/-- Two buffers that nobody can decode: the statistics of the one are handed over all the same. -/
theorem metadata_handed_over_once_undecoded :
    let m := new .empty
    let spills : List Spill := [.events "a" [⟨0, 10, 7, .empty⟩],
      (Spill.raw "b" [1, 2, 3]).withStats (.new 0.0 0 .stop ⟨0, 0⟩), .raw "b" [4]]
    m.Fresh ∧ (m.pushAll spills).finish.report.decodeErrors = 2 ∧
      ∃ origins : List Nat, origins.Nodup ∧
        List.Forall₂ (fun i d => ∃ s, spills[i]? = some s ∧ Tells s d) origins
          ((m.pushAll spills).finish.handedSince m) ∧ 1 ∈ origins := by
  intro m spills
  obtain ⟨origins, hnodup, htells, hall⟩ := metadata_handed_over_once (fresh_new .empty) spills
  exact ⟨fresh_new .empty, by decide, origins, hnodup, htells, hall 1 _ rfl (by decide)⟩

end Merger

end ListMode
