import LibPaxos.Types
import LibPaxos.Lib.Slots
import Mathlib.Data.List.Count

/-!
# Counting acknowledgements

`quorum.c`: one flag for each acceptor id and the number of flags set. The C structure keeps the
count beside the flags; here a `Quorum` carries the proof that the two agree, so that a reached
quorum is a fact about distinct ids from the start.
-/

namespace LibPaxos

/-- `struct quorum`. -/
structure Quorum where
  quorum : Nat
  count : Nat
  acceptors : Nat
  acceptorIds : List Bool
  quorum_eq : quorum = paxosQuorum acceptors
  length_eq : acceptorIds.length = acceptors
  count_eq : count = acceptorIds.count true
deriving DecidableEq

/-- `quorum_init`, which ends in `quorum_clear`. -/
def quorumInit (acceptors : Nat) : Quorum where
  quorum := paxosQuorum acceptors
  count := 0
  acceptors := acceptors
  acceptorIds := List.replicate acceptors false
  quorum_eq := rfl
  length_eq := List.length_replicate
  count_eq := by simp [List.count_replicate]

/-- `quorum_clear`. -/
def quorumClear (q : Quorum) : Quorum where
  quorum := q.quorum
  count := 0
  acceptors := q.acceptors
  acceptorIds := List.replicate q.acceptors false
  quorum_eq := q.quorum_eq
  length_eq := List.length_replicate
  count_eq := by simp [List.count_replicate]

/-- Setting a flag that was clear adds one to the number of flags set. -/
theorem count_set_of_getElem?_false {l : List Bool} {i : Nat} (h : l[i]? = some false) :
    (l.set i true).count true = l.count true + 1 := by
  induction l generalizing i with
  | nil => simp at h
  | cons x xs ih =>
    cases i with
    | zero =>
      obtain rfl : x = false := by simpa using h
      simp
    | succ i =>
      have hx := ih (i := i) (by simpa using h)
      simp only [List.set_cons_succ, List.count_cons, hx]
      omega

/-- `quorum_add`: the flag of `id` is read first, so an id outside the array is not a normal
outcome. The result is true if the id was new. -/
def quorumAdd (q : Quorum) (id : Nat) : Except Fault (Quorum × Bool) :=
  match h : q.acceptorIds[id]? with
  | none => .error .outOfBounds
  | some false =>
    .ok ({ q with
      count := q.count + 1
      acceptorIds := q.acceptorIds.set id true
      length_eq := by rw [List.length_set]; exact q.length_eq
      count_eq := by rw [count_set_of_getElem?_false h, q.count_eq] }, true)
  | some true => .ok (q, false)

/-- `quorum_reached`. -/
def quorumReached (q : Quorum) : Bool :=
  q.quorum ≤ q.count

/-! ## The set of ids counted -/

/-- The acceptor ids whose flag is set. -/
def Quorum.ids (q : Quorum) : Finset Nat :=
  q.acceptorIds.slots id

theorem Quorum.mem_ids {q : Quorum} {i : Nat} : i ∈ q.ids ↔ q.acceptorIds[i]? = some true := by
  unfold Quorum.ids
  rw [List.mem_slots]
  constructor
  · rintro ⟨x, hx, rfl⟩
    exact hx
  · exact fun h => ⟨true, h, rfl⟩

theorem Quorum.card_ids (q : Quorum) : q.ids.card = q.count := by
  unfold Quorum.ids
  rw [List.card_slots, q.count_eq, List.count]
  congr 1
  funext b
  cases b <;> rfl

theorem Quorum.ids_subset (q : Quorum) : q.ids ⊆ Finset.range q.acceptors := by
  rw [← q.length_eq]
  exact List.slots_subset _ _

theorem ids_quorumInit (n : Nat) : (quorumInit n).ids = ∅ := by
  apply Finset.eq_empty_of_forall_notMem
  intro i hi
  rw [Quorum.mem_ids] at hi
  simp [quorumInit, List.getElem?_replicate] at hi

theorem ids_quorumClear (q : Quorum) : (quorumClear q).ids = ∅ := by
  apply Finset.eq_empty_of_forall_notMem
  intro i hi
  rw [Quorum.mem_ids] at hi
  simp [quorumClear, List.getElem?_replicate] at hi

/-- A reached quorum is a set of at least `paxosQuorum` distinct ids below the acceptor count. -/
theorem Quorum.le_card_of_reached {q : Quorum} (h : quorumReached q = true) :
    paxosQuorum q.acceptors ≤ q.ids.card := by
  rw [Quorum.card_ids, ← q.quorum_eq]
  simpa [quorumReached] using h

/-- With all acceptors counted the quorum is reached. -/
theorem Quorum.reached_of_all {q : Quorum} (hpos : 0 < q.acceptors)
    (h : Finset.range q.acceptors ⊆ q.ids) : quorumReached q = true := by
  have hcard := Finset.card_le_card h
  rw [Finset.card_range, Quorum.card_ids] at hcard
  have hle : paxosQuorum q.acceptors ≤ q.acceptors := by
    unfold paxosQuorum
    omega
  rw [← q.quorum_eq] at hle
  exact decide_eq_true (Nat.le_trans hle hcard)

theorem quorumReached_quorumClear (q : Quorum) : quorumReached (quorumClear q) = false := by
  have hpos := paxosQuorum_pos q.acceptors
  rw [← q.quorum_eq] at hpos
  exact decide_eq_false (Nat.not_le.mpr hpos)

/-! ## What `quorumAdd` does -/

/-- An id that is counted was in range and not counted before. -/
theorem quorumAdd_true {q q' : Quorum} {id : Nat} (h : quorumAdd q id = .ok (q', true)) :
    id ∉ q.ids ∧ id < q.acceptors ∧ q'.ids = insert id q.ids ∧ q'.acceptors = q.acceptors := by
  unfold quorumAdd at h
  split at h
  · cases h
  · rename_i hid
    simp only [Except.ok.injEq, Prod.mk.injEq, and_true] at h
    subst h
    have hlt : id < q.acceptorIds.length := (List.getElem?_eq_some_iff.mp hid).1
    refine ⟨?_, by rw [← q.length_eq]; exact hlt, ?_, rfl⟩
    · rw [Quorum.mem_ids, hid]
      simp
    · ext i
      rw [Finset.mem_insert, Quorum.mem_ids, Quorum.mem_ids]
      show (q.acceptorIds.set id true)[i]? = some true ↔ _
      rw [List.getElem?_set]
      by_cases hi : id = i
      · subst hi
        simp [hlt]
      · simp [hi, Ne.symm hi]
  · cases h

/-- An id that is not counted was counted before. -/
theorem quorumAdd_false {q q' : Quorum} {id : Nat} (h : quorumAdd q id = .ok (q', false)) :
    id ∈ q.ids := by
  unfold quorumAdd at h
  split at h
  · cases h
  · cases h
  · rename_i hid
    exact Quorum.mem_ids.mpr hid

/-- `quorumAdd` returns for every id below the acceptor count. -/
theorem quorumAdd_isOk {q : Quorum} {id : Nat} (h : id < q.acceptors) :
    ∃ r, quorumAdd q id = .ok r := by
  have hlt : id < q.acceptorIds.length := by rw [q.length_eq]; exact h
  unfold quorumAdd
  split
  · rename_i hid
    rw [List.getElem?_eq_none_iff] at hid
    omega
  · exact ⟨_, rfl⟩
  · exact ⟨_, rfl⟩

end LibPaxos
