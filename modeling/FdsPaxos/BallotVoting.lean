import Mathlib.Data.Finset.Card

set_option autoImplicit false

/-!
Voting by ballots, over arbitrary voters and values.  A value is chosen when a quorum
has voted for it at one ballot; a proposal is safe at its ballot when no other value was
or can be chosen at a lower one.
-/

namespace FdsPaxos.BallotVoting

/-- The votes cast, the values proposed, and the quorums. -/
structure Voting (A V : Type*) where
  voted : A → ℕ → V → Prop
  proposed : ℕ → V → Prop
  quorum : Finset A → Prop

variable {A V : Type*} (p : Voting A V)

namespace Voting

def Chosen (b : ℕ) (v : V) : Prop :=
  ∃ Q, p.quorum Q ∧ ∀ a ∈ Q, p.voted a b v

/-- A quorum has not voted below `b`, or the highest of its votes below `b` was for `v`. -/
def SafeAt (b : ℕ) (v : V) : Prop :=
  ∃ Q, p.quorum Q ∧
    ((∀ a ∈ Q, ∀ c < b, ∀ w, ¬ p.voted a c w) ∨
      ∃ k < b, (∃ a ∈ Q, p.voted a k v) ∧ ∀ a ∈ Q, ∀ c < b, ∀ w, p.voted a c w → c ≤ k)

/-- Votes are for proposals, a ballot has one proposal, and every proposal is safe. -/
structure Sound : Prop where
  meet : ∀ Q Q', p.quorum Q → p.quorum Q' → ∃ a ∈ Q, a ∈ Q'
  voted_proposed : ∀ a b v, p.voted a b v → p.proposed b v
  single : ∀ b v w, p.proposed b v → p.proposed b w → v = w
  safe : ∀ b v, p.proposed b v → p.SafeAt b v

variable {p} {b c : ℕ} {v w : V}

/-- Once a value is chosen, every proposal at a higher ballot is for it. -/
theorem Sound.proposed_after_chosen (h : p.Sound) (chosen : p.Chosen b v) (later : b < c)
    (proposed : p.proposed c w) : w = v := by
  induction c using Nat.strongRecOn generalizing w with
  | ind c ih =>
    obtain ⟨Q, hQ, votes⟩ := chosen
    obtain ⟨Q', hQ', silent | ⟨k, below, ⟨a', -, vote⟩, highest⟩⟩ := h.safe c w proposed
    · obtain ⟨a, ha, ha'⟩ := h.meet Q Q' hQ hQ'
      exact absurd (votes a ha) (silent a ha' b later v)
    · -- the two quorums meet in a voter for `v`, so the highest vote is not below `b`
      obtain ⟨a, ha, ha'⟩ := h.meet Q Q' hQ hQ'
      have above : b ≤ k := highest a ha' b later v (votes a ha)
      have source := h.voted_proposed a' k w vote
      rcases Nat.lt_or_eq_of_le above with lt | rfl
      · exact ih k below lt source
      · exact h.single b w v source (h.voted_proposed a b v (votes a ha))

theorem Sound.proposed_of_chosen (h : p.Sound) (chosen : p.Chosen b v) : p.proposed b v := by
  obtain ⟨Q, hQ, votes⟩ := chosen
  obtain ⟨a, ha, -⟩ := h.meet Q Q hQ hQ
  exact h.voted_proposed a b v (votes a ha)

theorem Sound.agreement (h : p.Sound) (first : p.Chosen b v) (second : p.Chosen c w) : v = w := by
  rcases Nat.lt_trichotomy b c with lt | rfl | lt
  · exact (h.proposed_after_chosen first lt (h.proposed_of_chosen second)).symm
  · exact h.single b v w (h.proposed_of_chosen first) (h.proposed_of_chosen second)
  · exact h.proposed_after_chosen second lt (h.proposed_of_chosen first)

end Voting

/-- Two majorities of `n` processes have a member in common. -/
theorem majorities_meet {n q : ℕ} (majority : n < q + q) {Q Q' : Finset ℕ}
    (low : Q ⊆ Finset.range n) (low' : Q' ⊆ Finset.range n) (card : q ≤ Q.card)
    (card' : q ≤ Q'.card) : ∃ a ∈ Q, a ∈ Q' := by
  by_contra none
  have disjoint : Disjoint Q Q' :=
    Finset.disjoint_left.mpr fun a ha ha' => none ⟨a, ha, ha'⟩
  have union : (Q ∪ Q').card ≤ n := by
    calc (Q ∪ Q').card ≤ (Finset.range n).card :=
          Finset.card_le_card (Finset.union_subset low low')
      _ = n := Finset.card_range n
  rw [Finset.card_union_of_disjoint disjoint] at union
  omega

end FdsPaxos.BallotVoting
