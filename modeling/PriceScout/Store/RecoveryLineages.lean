import PriceScout.Library.Lineages
import PriceScout.Store.Aborts

/-!
The executions that recover one another form lines, which the attempt limit
bounds when every process goes by the same one.
-/

namespace PriceScout.Store.RecoveryLineages

open PriceScout.Domain
open PriceScout.Library.Lineages
open PriceScout.Library.Runs
open PriceScout.Library.Tables
open PriceScout.Store.Aborts
open PriceScout.Store.Alerts
open PriceScout.Store.Effects
open PriceScout.Store.Lifecycles
open PriceScout.Store.Operations
open PriceScout.Store.Schema

/-- The stored execution records that it recovers the other. -/
def RecordedRecovery (db : Database) (p e : Execution) : Prop :=
  p ∈ db.executions ∧ e ∈ db.executions ∧ e.recoveryOf = some p.id

/-- No execution has more attempts than the limit, unless it is a first one. -/
def Within (maxAttempts : Nat) (t : Table Execution.id) : Prop :=
  ∀ e ∈ t, e.recoveryOf.isSome = true → e.attempt ≤ maxAttempts

/-- What recoveries make of the executions. -/
structure Recoverable (maxAttempts : Nat) (db : Database) : Prop where
  first : ∀ e ∈ db.executions, e.recoveryOf = none → e.attempt = 1
  recovery : ∀ e ∈ db.executions, ∀ id ∈ e.recoveryOf,
    e.attempt ≤ maxAttempts ∧ ∃ p ∈ db.executions, p.id = id ∧ Recovers p e
  single : ∀ e ∈ db.executions, ∀ s ∈ db.executions, ∀ id, e.recoveryOf = some id →
    s.recoveryOf = some id → e = s
  bounded : ∀ e ∈ db.executions, (descendants (RecordedRecovery db) e).encard ≤ maxAttempts

section Preservation

variable {maxAttempts : Nat} {call : Call} {t t' : Table Execution.id} {db : Database}

theorem Within.evolves (h : Within maxAttempts t) (hevolves : t.Evolves Progressed t') :
    Within maxAttempts t' := by
  intro e' he' hsome
  obtain ⟨e, he, -, hprogressed⟩ := hevolves.backward e' he'
  rw [hprogressed.sameJob.attempt]
  exact h e he (by rwa [← hprogressed.sameJob.recoveryOf])

theorem Within.worked (h : Within maxAttempts t) (hworked : Worked call t t')
    (hlimit : ∀ limit ∈ attemptLimit call, limit = maxAttempts) : Within maxAttempts t' := by
  cases hworked with
  | claimed e e' t' hflight hrunning hjob hsubstituted =>
      exact h.evolves (.of_substituted Progressed.refl hsubstituted
        (progressed_of_running hflight hrunning hjob))
  | ended e e' t' hflight hterminal hjob hends hsubstituted =>
      exact h.evolves (.of_substituted Progressed.refl hsubstituted
        (progressed_of_ended hflight hterminal hjob))
  | enqueued n t' hqueued hfirst hroot happended =>
      exact Table.forall_appended happended h fun hsome => by simp [hroot] at hsome
  | replaced e e' id limit t₁ t' hflight hfailed hjob hends hcall hattempt hsubstituted happended =>
      have hterminal : e'.inFlight = false := by
        simp [Execution.inFlight, hfailed, ExecutionState.inFlight]
      have hwithin := h.evolves (.of_substituted Progressed.refl hsubstituted
        (progressed_of_ended hflight hterminal hjob))
      refine Table.forall_appended happended hwithin fun _ => ?_
      obtain rfl := hlimit limit hcall
      exact hattempt

theorem Within.step (h : Within maxAttempts db.executions)
    (hlimit : ∀ limit ∈ attemptLimit call, limit = maxAttempts) :
    Within maxAttempts (step db call).executions := by
  have hworked := worked_of_step db call
  generalize (Operations.step db call).executions = t at hworked ⊢
  induction hworked with
  | refl => exact h
  | tail _ hlast ih => exact ih.worked hlast hlimit

/-- The executions of a lineage number their attempts, so they are at most the limit. -/
theorem encard_lineage_le (hpos : 1 ≤ maxAttempts) (h : Linear db.executions)
    (hwithin : Within maxAttempts db.executions) {e : Execution} (he : e ∈ db.executions) :
    (descendants (RecordedRecovery db) e).encard ≤ maxAttempts := by
  have hunique : Relator.RightUnique (RecordedRecovery db) := by
    rintro p a b ⟨-, ha, hpa⟩ ⟨-, hb, hpb⟩
    exact h.single a ha b hb (by simp [hpa]) (hpa.trans hpb.symm)
  have hrank : ∀ p a, RecordedRecovery db p a → a.attempt = p.attempt + 1 := by
    rintro p a ⟨hp, ha, hpa⟩
    obtain ⟨s, hs, hid, hrecovers⟩ := h.parent a ha p.id hpa
    obtain rfl := Table.eq_of_key_eq hs hp hid
    exact hrecovers.attempt
  have hrange : ∀ a ∈ db.executions, 1 ≤ a.attempt ∧ a.attempt ≤ maxAttempts := by
    intro a ha
    cases hrecovery : a.recoveryOf with
    | none =>
        rw [h.first a ha hrecovery]
        exact ⟨le_refl 1, hpos⟩
    | some id =>
        obtain ⟨p, -, -, hrecovers⟩ := h.parent a ha id hrecovery
        exact ⟨by rw [hrecovers.attempt]; omega, hwithin a ha (by simp [hrecovery])⟩
  refine encard_descendants_le hunique hrank fun a ha => hrange a ?_
  rcases Relation.ReflTransGen.cases_tail ha with rfl | ⟨p, -, -, hmem, -⟩
  · exact he
  · exact hmem

end Preservation

/-- In a run whose processes share one attempt limit the recoveries are linear and
bounded in every state, and no transaction from it violates a recovery or repair key. -/
theorem lineages_linear_and_bounded (calls : List Call) (maxAttempts : Nat)
    (hpos : 1 ≤ maxAttempts)
    (hlimit : ∀ call ∈ calls, ∀ limit ∈ attemptLimit call, limit = maxAttempts) (n : Nat) :
    Recoverable maxAttempts (stateAt step Database.empty calls n) ∧
      ∀ call, Avoids violatesRecoveryKey (outcome (stateAt step Database.empty calls n) call) := by
  have hreachable : StoreReachable (stateAt step Database.empty calls n) :=
    reachable_stateAt calls n
  have hlinear := linear_of_reachable hreachable
  have hwithin : Within maxAttempts (stateAt step Database.empty calls n).executions :=
    stateAt_invariant (P := fun db : Database => Within maxAttempts db.executions)
      (C := fun _ call => ∀ limit ∈ attemptLimit call, limit = maxAttempts)
      (fun _ he => absurd he (Table.not_mem_empty _)) (fun _ _ _ h hcall => h.step hcall)
      (fun _ hn => hlimit _ (List.getElem_mem hn)) n
  constructor
  · constructor
    · exact hlinear.first
    · intro e he id hid
      exact ⟨hwithin e he (Option.isSome_of_mem hid), hlinear.parent e he id hid⟩
    · intro e he s hs id heid hsid
      exact hlinear.single e he s hs (Option.isSome_of_mem heid) (heid.trans hsid.symm)
    · exact fun e he => encard_lineage_le hpos hlinear hwithin he
  · intro call error herror hkey
    exact avoids_outcome hreachable call error herror (Or.inl hkey)

/-- A compile that fails twice for want of infrastructure, and then for good. -/
def transientCompile : List Call :=
  [⟨0, .createMonitor ⟨"https://shop.example/item", "price of the item", 60, ""⟩⟩,
   ⟨1, .applyResult (openStore [] 2) ⟨2⟩ (.bare "failed" "transient_infrastructure")⟩,
   ⟨2, .sweepStaleExecutions 60 2 10 fun _ => false⟩,
   ⟨3, .applyResult (openStore [] 2) ⟨3⟩ (.bare "failed" "transient_infrastructure")⟩]

theorem lineages_linear_and_bounded_transient :
    Recoverable 2 (stateAt step Database.empty transientCompile 4) ∧
      ∀ call, Avoids violatesRecoveryKey
        (outcome (stateAt step Database.empty transientCompile 4) call) :=
  lineages_linear_and_bounded transientCompile 2 (by decide) (by decide) 4

end PriceScout.Store.RecoveryLineages
