import PriceScout.Worker.Acceptance
import PriceScout.Store.Results
import PriceScout.Store.Admission
import PriceScout.Store.Scheduling
import PriceScout.Store.Activation
import PriceScout.Store.Pausing
import PriceScout.Store.CheckStarts
import PriceScout.Store.Attendance
import PriceScout.Store.Latch
import PriceScout.Store.LatchMeaning
import PriceScout.Store.RepairOutcomes
import PriceScout.Store.RepairTracking
import PriceScout.Store.RecoveryLineages
import PriceScout.Worker.Queue
import PriceScout.Httpapi.ArtifactFiles
import PriceScout.Store.CompileStatus
import PriceScout.Store.RepeatedChecks
import PriceScout.Alertdelivery.Attempts
import PriceScout.Alertdelivery.LeaseProtocol
import PriceScout.Store.Completions
import PriceScout.Httpapi.ConditionMeaning
import PriceScout.Worker.MonitorConditions
import PriceScout.Worker.PriceAmounts
import PriceScout.Worker.PriceRenderings
import PriceScout.Worker.JsonLdIndependence
import PriceScout.Worker.CurrencySources
import PriceScout.Worker.OptionalEvidence
import PriceScout.Worker.VariantChecks
import PriceScout.Worker.FailureClasses
import PriceScout.Worker.AddressPolicy
import PriceScout.Worker.AvailabilityTexts
import PriceScout.Worker.Deliveries
import PriceScout.Worker.ActionInspection
import PriceScout.Store.OutboxRelay
import PriceScout.Alertdelivery.DiscordTexts
import PriceScout.Alertdelivery.ResponseTexts
import PriceScout.Store.Fairness
import PriceScout.Events.Streams
import PriceScout.Alertdelivery.Requests
import PriceScout.Alertdelivery.Readiness
import PriceScout.Worker.Exchanges
