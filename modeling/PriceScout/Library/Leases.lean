import Mathlib.Algebra.Order.Ring.Int
import Mathlib.Data.Nat.Init

/-!
Jobs that are leased to a worker for a time. A lease that has run out can be
taken over by anyone; whoever has lost a lease cannot settle the job any more.
-/

namespace PriceScout.Library.Leases

variable {ο ρ : Type}

inductive Job (ο ρ : Type) where
  | waiting
  | leased (owner : ο) (expires : Int)
  | done (result : ρ)

/-- The job can be taken: nobody has it, or the lease has run out. -/
def Job.Available (now : Int) : Job ο ρ → Prop
  | .waiting => True
  | .leased _ expires => expires ≤ now
  | .done _ => False

def Job.HeldBy (owner : ο) : Job ο ρ → Prop
  | .leased holder _ => holder = owner
  | _ => False

/-- Who acts on the jobs, and when. -/
inductive Move (ο : Type) where
  | take (owner : ο) (now : Int)
  | report (owner : ο)
  | abandon (now : Int)
  | other

/-- What a move can do to a job. -/
inductive Step : Move ο → Job ο ρ → Job ο ρ → Prop
  | stayed (move : Move ο) (job : Job ο ρ) : Step move job job
  | taken (owner : ο) (now expires : Int) (job : Job ο ρ) (h : job.Available now) :
      Step (.take owner now) job (.leased owner expires)
  | finished (owner : ο) (expires : Int) (result : ρ) :
      Step (.report owner) (.leased owner expires) (.done result)
  | returned (owner : ο) (expires : Int) : Step (.report owner) (.leased owner expires) .waiting
  | abandoned (now : Int) (job : Job ο ρ) (result : ρ) (h : job.Available now) :
      Step (.abandon now) job (.done result)

variable {move : Move ο} {job job' : Job ο ρ} {owner : ο}

/-- Only a worker that takes the job comes to hold it. -/
theorem Step.heldBy (h : Step move job job') (hheld : job'.HeldBy owner) :
    job.HeldBy owner ∨ ∃ now, move = .take owner now := by
  cases h with
  | stayed => exact Or.inl hheld
  | taken taker now expires job havailable =>
      obtain rfl : taker = owner := hheld
      exact Or.inr ⟨now, rfl⟩
  | finished | returned | abandoned => exact absurd hheld id

section Runs

variable (moves : Nat → Move ο) (jobs : Nat → Job ο ρ) {i j : Nat}

/-- A lost lease stays lost as long as its former owner takes nothing. -/
theorem not_heldBy_of_lost
    (h : ∀ k, i ≤ k → k < j → Step (moves k) (jobs k) (jobs (k + 1)))
    (hnever : ∀ k, i ≤ k → k < j → ∀ now, moves k ≠ .take owner now)
    (hlost : ¬ (jobs i).HeldBy owner) (hij : i ≤ j) : ¬ (jobs j).HeldBy owner := by
  induction j, hij using Nat.le_induction with
  | base => exact hlost
  | succ j hij ih =>
      intro hheld
      rcases (h j hij (Nat.lt_succ_self j)).heldBy hheld with hheld | ⟨now, htake⟩
      · refine ih (fun k hik hkj => h k hik (hkj.trans (Nat.lt_succ_self j)))
          (fun k hik hkj => hnever k hik (hkj.trans (Nat.lt_succ_self j))) hheld
      · exact hnever j hij (Nat.lt_succ_self j) now htake

end Runs

end PriceScout.Library.Leases
