import Mathlib.Data.Finset.Card
import Mathlib.Data.Finset.Range
import Mathlib.Order.Interval.Finset.Nat

/-!
# Ballot voting on one decision

The argument behind ballot-based consensus, on its own. A `World` records what has happened
about one decision: which acceptor voted for which value at which ballot, which ballots an
acceptor has promised not to vote below any more, and which values were requested at which
ballot by whom. Nothing here says how requests are produced.

* **`World.Extends`** — how a world may grow: votes, promises and requests are only added,
  and an acceptor that has promised `b` adds no vote below `b`.
* **`World.Report`** — what a promise says about the acceptor's past votes.
* **`World.Collected`** — what a requester knows after some reports at its ballot: every
  acceptor of the set has promised, and the best vote seen so far covers their last votes.
* **`World.Safe`** — votes follow requests, one value a ballot, requests justified by a quorum of
  reports. `Safe.request_eq_of_chosen` is the safety theorem.

Some requesters overlook votes for certain values. The parameter `vis` holds of the values that are
never overlooked in a report, and `due` of the values whose requests are justified at all. The
safety theorem speaks about a visible value that is chosen and about requests that are due; no
value may be neither.
-/

namespace Voting

/-- What has happened so far about one decision. -/
structure World (P A V : Type) where
  vote : A → Nat → V → Prop
  promised : A → Nat → Prop
  request : P → Nat → V → Prop

namespace World

variable {P A V : Type}

/-! ## Growing worlds -/

/-- `W'` is a later world than `W`. -/
structure Extends (W W' : World P A V) : Prop where
  vote : ∀ {a c v}, W.vote a c v → W'.vote a c v
  promised : ∀ {a b}, W.promised a b → W'.promised a b
  request : ∀ {p b v}, W.request p b v → W'.request p b v
  old : ∀ {a b c v}, W.promised a b → W'.vote a c v → c < b → W.vote a c v

theorem Extends.refl (W : World P A V) : Extends W W :=
  ⟨id, id, id, fun _ h _ => h⟩

/-- `(c, v)` is the last vote of `a` below the ballot `b`. -/
def LastBelow (W : World P A V) (a : A) (b c : Nat) (v : V) : Prop :=
  W.vote a c v ∧ c < b ∧ ∀ c' v', W.vote a c' v' → c' < b → c' ≤ c

/-- An acceptor with a vote below `b` has a last one. Induction on the distance to `b`: either
the vote at hand is the last one or a later vote is closer to `b`. -/
theorem exists_lastBelow {W : World P A V} {a : A} {b : Nat} :
    ∀ (d : Nat) {c : Nat} {v : V}, b - c = d → W.vote a c v → c < b →
      ∃ c' v', W.LastBelow a b c' v' ∧ c ≤ c' := by
  intro d
  induction d using Nat.strong_induction_on with
  | _ d ih =>
    intro c v hd hv hc
    by_cases hlast : ∀ c' v', W.vote a c' v' → c' < b → c' ≤ c
    · exact ⟨c, v, ⟨hv, hc, hlast⟩, le_rfl⟩
    · push Not at hlast
      obtain ⟨c₁, v₁, hv₁, hc₁, hlt⟩ := hlast
      obtain ⟨c', v', hl, hle⟩ := ih (b - c₁) (by omega) rfl hv₁ hc₁
      exact ⟨c', v', hl, by omega⟩

/-- A promise at `b` fixes the last vote below `b` for good. -/
theorem Extends.lastBelow {W W' : World P A V} (h : Extends W W') {a : A} {b c : Nat} {v : V}
    (hp : W.promised a b) (hl : W'.LastBelow a b c v) : W.LastBelow a b c v :=
  ⟨h.old hp hl.1 hl.2.1, hl.2.1, fun c' v' hv' hc' => hl.2.2 c' v' (h.vote hv') hc'⟩

/-! ## Reports -/

/-- The acceptor `a`, asked at ballot `b`, promised `b` and reported `(c, v)` as the last value
it voted for; any vote below `b` makes the reported pair a vote that is not older. -/
structure Report (W : World P A V) (a : A) (b c : Nat) (v : V) : Prop where
  promised : W.promised a b
  last : ∀ c' v', W.vote a c' v' → c' < b → c' ≤ c ∧ W.vote a c v

theorem Report.mono {W W' : World P A V} (h : Extends W W') {a : A} {b c : Nat} {v : V}
    (hr : W.Report a b c v) : W'.Report a b c v where
  promised := h.promised hr.promised
  last := by
    intro c' v' hv' hc'
    obtain ⟨hle, hv⟩ := hr.last c' v' (h.old hr.promised hv' hc') hc'
    exact ⟨hle, h.vote hv⟩

/-- Each acceptor votes for one value a ballot. -/
def VotesUnique (W : World P A V) : Prop :=
  ∀ a c v v', W.vote a c v → W.vote a c v' → v = v'

/-- A report below its own ballot names the last vote below that ballot. -/
theorem Report.eq_of_lastBelow {W : World P A V} (hu : W.VotesUnique) {a : A} {b c : Nat} {v : V}
    (hr : W.Report a b c v) (hc : W.vote a c v → c < b) {c' : Nat} {v' : V}
    (hl : W.LastBelow a b c' v') : c' = c ∧ v' = v := by
  obtain ⟨hle, hv⟩ := hr.last c' v' hl.1 hl.2.1
  obtain rfl : c' = c := le_antisymm hle (hl.2.2 c v hv (hc hv))
  exact ⟨rfl, hu a c' v' v hl.1 hv⟩

/-! ## Collecting reports

A requester hears from one acceptor after the other, so what it knows is built up by
`Collected.insert` from `Collected.empty`. The best vote it has seen need not be the latest one that
was cast: it only has to cover the last votes of those it has heard from. -/

/-- What a requester at ballot `b` knows after reports from the acceptors of `S`, when `best` is
the vote it would adopt. -/
structure Collected (W : World P A V) (vis : V → Prop) (b : Nat) (S : Finset A)
    (best : Option (Nat × V)) : Prop where
  promised : ∀ a ∈ S, W.promised a b
  voted : ∀ c v, best = some (c, v) → c < b ∧ ∃ a, W.vote a c v
  covers : ∀ a ∈ S, ∀ c w, W.LastBelow a b c w → vis w → ∃ c' v', best = some (c', v') ∧ c ≤ c'

theorem Collected.empty (W : World P A V) (vis : V → Prop) (b : Nat) :
    W.Collected vis b ∅ none where
  promised := by simp
  voted := by simp
  covers := by simp

theorem Collected.mono {W W' : World P A V} (h : Extends W W') {vis : V → Prop} {b : Nat}
    {S : Finset A} {best : Option (Nat × V)} (hc : W.Collected vis b S best) :
    W'.Collected vis b S best where
  promised a ha := h.promised (hc.promised a ha)
  voted c v hb := by
    obtain ⟨hlt, a, hv⟩ := hc.voted c v hb
    exact ⟨hlt, a, h.vote hv⟩
  covers a ha c w hl hw := hc.covers a ha c w (h.lastBelow (hc.promised a ha) hl) hw

theorem Collected.subset {W : World P A V} {vis : V → Prop} {b : Nat} {S T : Finset A}
    {best : Option (Nat × V)} (hc : W.Collected vis b S best) (h : T ⊆ S) :
    W.Collected vis b T best where
  promised a ha := hc.promised a (h ha)
  voted := hc.voted
  covers a ha := hc.covers a (h ha)

/-- Votes that were not visible may be added, if the best vote covers them too. -/
theorem Collected.widen {W : World P A V} {vis vis' : V → Prop} {b : Nat} {S : Finset A}
    {best : Option (Nat × V)} (hc : W.Collected vis b S best)
    (h : ∀ a ∈ S, ∀ c w, W.LastBelow a b c w → vis' w → ¬ vis w →
      ∃ c' v', best = some (c', v') ∧ c ≤ c') : W.Collected vis' b S best where
  promised := hc.promised
  voted := hc.voted
  covers a ha c w hl hw := by
    by_cases hv : vis w
    · exact hc.covers a ha c w hl hv
    · exact h a ha c w hl hw hv

/-- One more report. The requester moves from `best` to `best'`, which must be a vote below the
ballot, must not be older than `best`, and must not overlook the reported vote if its value is
visible. -/
theorem Collected.insert [DecidableEq A] {W : World P A V} (hu : W.VotesUnique) {vis : V → Prop}
    {b : Nat} {S : Finset A} {best best' : Option (Nat × V)} (hc : W.Collected vis b S best)
    {a : A} {c : Nat} {v : V} (hr : W.Report a b c v) (hlt : W.vote a c v → c < b)
    (hvoted : ∀ c' v', best' = some (c', v') → c' < b ∧ ∃ a', W.vote a' c' v')
    (hkeep : ∀ c' v', best = some (c', v') → ∃ c'' v'', best' = some (c'', v'') ∧ c' ≤ c'')
    (hnew : W.vote a c v → vis v → ∃ c' v', best' = some (c', v') ∧ c ≤ c') :
    W.Collected vis b (insert a S) best' where
  promised := by
    intro a' ha'
    rcases Finset.mem_insert.mp ha' with rfl | ha'
    · exact hr.promised
    · exact hc.promised a' ha'
  voted := hvoted
  covers := by
    intro a' ha' c' w hl hw
    rcases Finset.mem_insert.mp ha' with rfl | ha'
    · obtain ⟨rfl, rfl⟩ := hr.eq_of_lastBelow hu hlt hl
      exact hnew hl.1 hw
    · obtain ⟨c₁, v₁, hb, hle⟩ := hc.covers a' ha' c' w hl hw
      obtain ⟨c₂, v₂, hb', hle'⟩ := hkeep c₁ v₁ hb
      exact ⟨c₂, v₂, hb', by omega⟩

/-! ## Justified requests and safety

The induction of the safety theorem is over ballots: a request above the ballot of a chosen value
was justified by a quorum, which has an acceptor in common with the quorum that chose the value. So
the best vote it was justified with is at that ballot or above, and by induction for the same value.
-/

section Safety

variable (isQuorum : Finset A → Prop) (vis due : V → Prop)

/-- A request for `v` at `b` is justified by a quorum that has promised `b` and whose visible
last votes below `b` are all covered by a vote for `v`. -/
def Justified (W : World P A V) (b : Nat) (v : V) : Prop :=
  ∃ Q, isQuorum Q ∧ (∀ a ∈ Q, W.promised a b) ∧
    ∀ a ∈ Q, ∀ c w, W.LastBelow a b c w → vis w → ∃ a' c', c ≤ c' ∧ c' < b ∧ W.vote a' c' v

/-- A quorum of acceptors voted for `v` at one ballot. -/
def Chosen (W : World P A V) (b : Nat) (v : V) : Prop :=
  ∃ Q, isQuorum Q ∧ ∀ a ∈ Q, W.vote a b v

/-- What was voted for was requested, one value at a ballot. -/
structure Orderly (W : World P A V) : Prop where
  requested : ∀ a c v, W.vote a c v → ∃ p, W.request p c v
  unique : ∀ p p' b v v', W.request p b v → W.request p' b v' → v = v'

structure Safe (W : World P A V) : Prop extends W.Orderly where
  justified : ∀ p b v, due v → W.request p b v → W.Justified isQuorum vis b v

variable {isQuorum vis due}

/-- A quorum of reports justifies the value that the best vote names, and any value if there is
no best vote. -/
theorem Collected.justified {W : World P A V} {b : Nat} {S : Finset A} {best : Option (Nat × V)}
    (hc : W.Collected vis b S best) (hS : isQuorum S) {v : V}
    (hv : ∀ c' v', best = some (c', v') → v' = v) : W.Justified isQuorum vis b v := by
  refine ⟨S, hS, hc.promised, ?_⟩
  intro a ha c w hl hw
  obtain ⟨c', v', hb, hle⟩ := hc.covers a ha c w hl hw
  obtain ⟨hlt, a', hvote⟩ := hc.voted c' v' hb
  obtain rfl := hv c' v' hb
  exact ⟨a', c', hle, hlt, hvote⟩

theorem Justified.mono {W W' : World P A V} (h : Extends W W') {b : Nat} {v : V}
    (hj : W.Justified isQuorum vis b v) : W'.Justified isQuorum vis b v := by
  obtain ⟨Q, hQ, hp, hcov⟩ := hj
  refine ⟨Q, hQ, fun a ha => h.promised (hp a ha), ?_⟩
  intro a ha c w hl hw
  obtain ⟨a', c', hle, hlt, hvote⟩ := hcov a ha c w (h.lastBelow (hp a ha) hl) hw
  exact ⟨a', c', hle, hlt, h.vote hvote⟩

theorem Chosen.mono {W W' : World P A V} (h : Extends W W') {b : Nat} {v : V}
    (hc : W.Chosen isQuorum b v) : W'.Chosen isQuorum b v := by
  obtain ⟨Q, hQ, hv⟩ := hc
  exact ⟨Q, hQ, fun a ha => h.vote (hv a ha)⟩

theorem Orderly.votesUnique {W : World P A V} (hs : W.Orderly) : W.VotesUnique := by
  intro a c v v' hv hv'
  obtain ⟨p, hp⟩ := hs.requested a c v hv
  obtain ⟨p', hp'⟩ := hs.requested a c v' hv'
  exact hs.unique p p' c v v' hp hp'

/-- **Safety.** Once a visible value is chosen at a ballot, every request that is due, at that
ballot or a later one, is for the same value. Strong induction on the ballot of the request: its
quorum meets the choosing quorum in an acceptor whose last vote is not older than the choice, hence
for the chosen value or for one that is visible anyway, hence seen; the vote adopted instead is not
older either. -/
theorem Safe.request_eq_of_chosen {W : World P A V} (hs : W.Safe isQuorum vis due)
    (hQ : ∀ Q Q', isQuorum Q → isQuorum Q' → ∃ a, a ∈ Q ∧ a ∈ Q') (hdue : ∀ w, due w ∨ vis w)
    {b : Nat} {v : V} (hc : W.Chosen isQuorum b v) (hv : vis v) :
    ∀ (b' : Nat) (p : P) (v' : V), due v' → W.request p b' v' → b ≤ b' → v' = v := by
  obtain ⟨Qc, hQc, hvotes⟩ := hc
  intro b'
  induction b' using Nat.strong_induction_on with
  | _ b' ih =>
    intro p v' hd hreq hle
    obtain ⟨Q, hQ', hprom, hcov⟩ := hs.justified p b' v' hd hreq
    obtain ⟨a, haQ, haQc⟩ := hQ Q Qc hQ' hQc
    rcases Nat.eq_or_lt_of_le hle with heq | hlt
    · -- the ballot of the choice itself: one value a ballot
      obtain ⟨p₁, hp₁⟩ := hs.requested a b v (hvotes a haQc)
      exact hs.unique p p₁ b' v' v hreq (heq ▸ hp₁)
    · obtain ⟨c, w, hl, hbc⟩ := exists_lastBelow _ rfl (hvotes a haQc) hlt
      -- the last vote is seen: it is for the chosen value, if its request was due
      have hw : vis w := by
        rcases hdue w with hdw | hw
        · obtain ⟨p₁, hp₁⟩ := hs.requested a c w hl.1
          exact ih c hl.2.1 p₁ w hdw hp₁ hbc ▸ hv
        · exact hw
      obtain ⟨a', c', hcc', hc'b, hvote⟩ := hcov a haQ c w hl hw
      -- the vote adopted in its place was requested as well
      obtain ⟨p₂, hp₂⟩ := hs.requested a' c' v' hvote
      exact ih c' hc'b p₂ v' hd hp₂ (by omega)

/-- Two visible values whose requests are due are not both chosen. -/
theorem Safe.chosen_unique {W : World P A V} (hs : W.Safe isQuorum vis due)
    (hQ : ∀ Q Q', isQuorum Q → isQuorum Q' → ∃ a, a ∈ Q ∧ a ∈ Q') (hdue : ∀ w, due w ∨ vis w)
    {b b' : Nat} {v v' : V} (hc : W.Chosen isQuorum b v) (hv : vis v) (hd : due v)
    (hc' : W.Chosen isQuorum b' v') (hv' : vis v') (hd' : due v') : v = v' := by
  have key : ∀ {b b' : Nat} {v v' : V}, W.Chosen isQuorum b v → vis v → W.Chosen isQuorum b' v' →
      due v' → b ≤ b' → v = v' := by
    intro b b' v v' hc hv hc' hd' hle
    obtain ⟨Q', hQ', hvotes'⟩ := hc'
    obtain ⟨a, ha, -⟩ := hQ Q' Q' hQ' hQ'
    obtain ⟨p, hp⟩ := hs.requested a b' v' (hvotes' a ha)
    exact (hs.request_eq_of_chosen hQ hdue hc hv b' p v' hd' hp hle).symm
  rcases Nat.le_total b b' with h | h
  · exact key hc hv hc' hd' h
  · exact (key hc' hv' hc hd h).symm

end Safety

end World

/-! ## Majorities -/

/-- A set of at least `q` of the acceptors `0, …, n - 1`. -/
def IsMajority (n q : Nat) (Q : Finset Nat) : Prop :=
  Q ⊆ Finset.range n ∧ q ≤ Q.card

/-- Two sets that each hold more than half of the acceptors have one in common. -/
theorem IsMajority.inter {n q : Nat} (hq : n < 2 * q) (Q Q' : Finset Nat) (h : IsMajority n q Q)
    (h' : IsMajority n q Q') : ∃ a, a ∈ Q ∧ a ∈ Q' := by
  by_contra hne
  have hdisj : Disjoint Q Q' := by
    rw [Finset.disjoint_left]
    intro a ha ha'
    exact hne ⟨a, ha, ha'⟩
  have hcard : (Q ∪ Q').card ≤ n := by
    have := Finset.card_le_card (Finset.union_subset h.1 h'.1)
    rwa [Finset.card_range] at this
  rw [Finset.card_union_of_disjoint hdisj] at hcard
  have := h.2
  have := h'.2
  omega

end Voting
