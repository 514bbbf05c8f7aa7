import PriceScout.Alertdelivery.Attempts
import PriceScout.Alertdelivery.Contents
import PriceScout.Alertdelivery.DiscordTexts
import PriceScout.Library.JsonTexts
import PriceScout.Store.Constraints

/-!
The requests that deliver an alert. Attempts at one delivery can be told to be the
same by their receiver, and deliveries can be told apart.
-/

namespace PriceScout.Alertdelivery.Requests

open PriceScout.Alertdelivery.Contents
open PriceScout.Alertdelivery.DiscordTexts
open PriceScout.Alertdelivery.Runner
open PriceScout.Domain
open PriceScout.Library.JsonDocuments
open PriceScout.Library.JsonTexts
open PriceScout.Library.Runs
open PriceScout.Library.Tables
open PriceScout.Store
open PriceScout.Store.Alerts
open PriceScout.Store.Constraints
open PriceScout.Store.Deliveries
open PriceScout.Store.DeliveryRuns
open PriceScout.Store.Operations
open PriceScout.Store.Schema

structure Request where
  url : String
  headers : List (String × String)
  body : List Char
deriving DecidableEq

def Request.header (request : Request) (name : String) : Option String :=
  (request.headers.find? fun entry => entry.1 = name).map Prod.snd

/-- What a runner is configured with. -/
structure Settings where
  publicURL : String
  webhookURL : String
  webhookSecret : String
  discordURL : String

def minorDigits (currency : String) : Nat :=
  if currency ∈ ["BIF", "CLP", "DJF", "GNF", "ISK", "JPY", "KMF", "KRW", "PYG", "RWF", "UGX", "UYI",
    "VND", "VUV", "XAF", "XOF", "XPF"] then 0
  else if currency ∈ ["BHD", "IQD", "JOD", "KWD", "LYD", "OMR", "TND"] then 3
  else if currency ∈ ["CLF", "UYW"] then 4
  else 2

/-- The UUID without its dashes, cut to what Discord takes for a nonce. -/
def discordNonce (id : UUID) : String :=
  String.ofList ((id.string.toList.filter (· ≠ '-')).take 25)

def evidenceURL (settings : Settings) (delivery : ClaimedDelivery) : String :=
  settings.publicURL ++ "/executions/" ++ delivery.executionId.string

section Requests

/- `jsonTime` and `rfc3339` are the texts of a time, `unix` its seconds, `toUpper` is
`strings.ToUpper`, `hmac` the hexadecimal HMAC-SHA256 of a message, and `waiting`
the URL with the query `wait=true`, if it is one. -/
variable (jsonTime rfc3339 : Timestamp → String) (unix : Timestamp → String)
  (toUpper : String → String) (hmac : String → List Char → String)
  (waiting : String → Option String)

/-- A price with its currency; the magnitude is that of the minor units. -/
def formatMoney (minor : Int) (currency : String) : String :=
  let digits := minorDigits (toUpper currency)
  let sign := if minor < 0 then "-" else ""
  let minor := minor.natAbs
  if digits = 0 then sign ++ toUpper currency ++ " " ++ toString minor
  else
    sign ++ toUpper currency ++ " " ++ toString (minor / 10 ^ digits) ++ "." ++
      String.ofList (padLeft digits (Nat.toDigits 10 (minor % 10 ^ digits)))

def sign (secret timestamp : String) (body : List Char) : String :=
  "sha256=" ++ hmac secret (timestamp.toList ++ '.' :: body)

def webhookPayload (settings : Settings) (delivery : ClaimedDelivery) : Json :=
  .obj [("schemaVersion", .int 1), ("event", .str "price.condition_met"),
    ("id", .str delivery.alertId.string), ("deliveryId", .str delivery.id.string),
    ("occurredAt", .str (jsonTime delivery.alertCreatedAt)),
    ("monitor", .obj [("id", .str delivery.monitorId.string), ("url", .str delivery.monitorUrl),
      ("intent", .str delivery.monitorIntent)]),
    ("observation", .obj [("id", .str delivery.observationId.string),
      ("executionId", .str delivery.executionId.string), ("priceMinor", .int delivery.priceMinor),
      ("currency", .str delivery.currency), ("inStock", .bool delivery.inStock),
      ("title", .str delivery.title), ("observedAt", .str (jsonTime delivery.observationTime))]),
    ("evidenceUrl", .str (evidenceURL settings delivery))]

def webhookRequest (settings : Settings) (now : Timestamp) (delivery : ClaimedDelivery) :
    Request :=
  let body := marshal (webhookPayload jsonTime settings delivery)
  { url := settings.webhookURL
    body := body
    headers := [("Content-Type", "application/json"), ("User-Agent", "price-scout/0.1"),
      ("Idempotency-Key", delivery.id.string), ("X-Price-Scout-Delivery", delivery.id.string),
      ("X-Price-Scout-Timestamp", unix now),
      ("X-Price-Scout-Signature", sign hmac settings.webhookSecret (unix now) body)] }

/-- The names in an object come in the order of a marshalled map. -/
def discordPayload (settings : Settings) (delivery : ClaimedDelivery) : Json :=
  let field (name value : String) (inline : Bool) : Json :=
    .obj [("inline", .bool inline), ("name", .str name), ("value", .str value)]
  .obj [("allowed_mentions", .obj [("parse", .arr [])]),
    ("embeds", .arr [.obj [("color", .int 0x22c55e),
      ("description", .str (truncateDiscord (escapeMarkdown delivery.title) 500)),
      ("fields", .arr [
        field "Observed price" (formatMoney toUpper delivery.priceMinor delivery.currency) true,
        field "Availability" (if delivery.inStock then "In stock" else "Out of stock") true,
        field "Monitor" (truncateDiscord (escapeMarkdown delivery.monitorIntent) 500) false,
        field "Evidence" (evidenceURL settings delivery) false]),
      ("footer", .obj [("text", .str ("Alert " ++ delivery.alertId.string))]),
      ("timestamp", .str (rfc3339 delivery.observationTime)),
      ("title", .str "Price target reached"), ("url", .str delivery.monitorUrl)]]),
    ("enforce_nonce", .bool true), ("nonce", .str (discordNonce delivery.id)),
    ("username", .str "Price Scout")]

def discordRequest (settings : Settings) (delivery : ClaimedDelivery) : Option Request :=
  (waiting settings.discordURL).map fun endpoint =>
    { url := endpoint
      body := marshal (discordPayload rfc3339 toUpper settings delivery)
      headers := [("Content-Type", "application/json"), ("User-Agent", "price-scout/0.1"),
        ("Idempotency-Key", delivery.id.string)] }

end Requests

theorem marshal_injective : Function.Injective marshal := by
  intro document document' h
  have hparse := congrArg parse h
  rw [parse_marshal, parse_marshal] at hparse
  exact Option.some.inj hparse

section Attempts

variable {parseTime : String → Option Timestamp} {events : List Event} {i j : Nat}
  {delivery delivery' : ClaimedDelivery}

/-- Whoever is handed a delivery, and whenever, is to tell the same. -/
theorem handed_same (hij : i ≤ j) (hi : i < events.length) (hj : j < events.length)
    (h : delivery ∈ handed (worldAt parseTime events i) events[i])
    (h' : delivery' ∈ handed (worldAt parseTime events j) events[j])
    (hid : delivery'.id = delivery.id) :
    delivery' = { delivery with attempt := delivery'.attempt } := by
  obtain ⟨d, hd, hdid, hjoined⟩ := joined_of_handed h
  obtain ⟨d', hd', hdid', hjoined'⟩ := joined_of_handed h'
  rw [← worldAt_succ hi] at hd hjoined
  rw [← worldAt_succ hj] at hd' hjoined'
  exact content_lasts (lasts_worldAt (Nat.succ_le_succ hij)) hd hd'
    (hdid'.trans (hid.trans hdid.symm)) hjoined hjoined'

theorem handed_same_content (hi : i < events.length) (hj : j < events.length)
    (h : delivery ∈ handed (worldAt parseTime events i) events[i])
    (h' : delivery' ∈ handed (worldAt parseTime events j) events[j])
    (hid : delivery'.id = delivery.id) :
    ∃ attempt, delivery' = { delivery with attempt := attempt } := by
  rcases Nat.le_total i j with hij | hji
  · exact ⟨_, handed_same hij hi hj h h' hid⟩
  · have hsame := handed_same hji hj hi h' h hid.symm
    refine ⟨delivery'.attempt, ?_⟩
    rw [hsame]

end Attempts

/-- Every attempt at a delivery, by whatever process and after whatever crashes, carries
the same content under the same idempotency key, and no two deliveries share either. -/
theorem attempts_say_the_same (jsonTime rfc3339 unix : Timestamp → String)
    (toUpper : String → String) (hmac : String → List Char → String)
    (waiting : String → Option String) (parseTime : String → Option Timestamp)
    {events : List Event} {i j : Nat} {delivery delivery' : ClaimedDelivery}
    (hi : i < events.length) (hj : j < events.length)
    (h : delivery ∈ handed (worldAt parseTime events i) events[i])
    (h' : delivery' ∈ handed (worldAt parseTime events j) events[j]) (settings : Settings)
    (now now' : Timestamp) :
    let webhook := webhookRequest jsonTime unix hmac settings now delivery
    let webhook' := webhookRequest jsonTime unix hmac settings now' delivery'
    (delivery'.id = delivery.id → webhook'.body = webhook.body ∧
      webhook'.header "Idempotency-Key" = webhook.header "Idempotency-Key" ∧
      discordRequest rfc3339 toUpper waiting settings delivery' =
        discordRequest rfc3339 toUpper waiting settings delivery) ∧
    (delivery'.id ≠ delivery.id → webhook'.body ≠ webhook.body ∧
      webhook'.header "Idempotency-Key" ≠ webhook.header "Idempotency-Key" ∧
      ∀ discord ∈ discordRequest rfc3339 toUpper waiting settings delivery,
        ∀ discord' ∈ discordRequest rfc3339 toUpper waiting settings delivery',
          discord'.header "Idempotency-Key" ≠ discord.header "Idempotency-Key") := by
  intro webhook webhook'
  have hkey : ∀ request : Request, ∀ first second id : String, ∀ rest,
      request.headers = ("Content-Type", first) :: ("User-Agent", second) ::
        ("Idempotency-Key", id) :: rest → request.header "Idempotency-Key" = some id := by
    intro request first second id rest hheaders
    simp [Request.header, hheaders]
  constructor
  · intro hid
    obtain ⟨attempt, rfl⟩ := handed_same_content hi hj h h' hid
    exact ⟨rfl, rfl, rfl⟩
  · intro hne
    have hstring : delivery'.id.string ≠ delivery.id.string := fun hsame =>
      hne (string_injective hsame)
    refine ⟨fun hbody => ?_, ?_, ?_⟩
    · have hpayload := marshal_injective hbody
      simp only [webhookPayload, Json.obj.injEq, List.cons.injEq, Prod.mk.injEq, Json.str.injEq,
        true_and] at hpayload
      exact hstring hpayload.2.1
    · rw [hkey webhook' _ _ _ _ rfl, hkey webhook _ _ _ _ rfl]
      exact fun hsame => hstring (Option.some.inj hsame)
    · intro discord hdiscord discord' hdiscord'
      obtain ⟨endpoint, -, rfl⟩ := Option.map_eq_some_iff.mp hdiscord
      obtain ⟨endpoint', -, rfl⟩ := Option.map_eq_some_iff.mp hdiscord'
      rw [hkey _ _ _ _ _ rfl, hkey _ _ _ _ _ rfl]
      exact fun hsame => hstring (Option.some.inj hsame)

/-- A process takes over two deliveries from one that crashed with them in hand. -/
def takenOver : List Event :=
  AlertAggregates.alertRaised.map .store ++ (List.range 2).flatMap Attempts.crashedClaim

/-- The text of a time in the first minute of the epoch. -/
def firstMinute (time : Timestamp) : String :=
  "1970-01-01T00:00:" ++ String.ofList (padLeft 2 (Nat.toDigits 10 time.toNat)) ++ "Z"

def theSettings : Settings where
  publicURL := "https://scout.example"
  webhookURL := "https://hooks.example/prices"
  webhookSecret := "secret"
  discordURL := "https://discord.example/api"

theorem attempts_say_the_same_takenOver :
    ∃ (hi : 7 < takenOver.length) (hj : 10 < takenOver.length),
      ∃ delivery ∈ handed (worldAt (fun _ => none) takenOver 7) takenOver[7],
        ∃ delivery' ∈ handed (worldAt (fun _ => none) takenOver 10) takenOver[10],
          delivery.attempt = 1 ∧ delivery'.attempt = 2 ∧
            (webhookRequest firstMinute (fun time => toString time) (fun _ _ => "") theSettings 200
                delivery').body =
              (webhookRequest firstMinute (fun time => toString time) (fun _ _ => "") theSettings
                100 delivery).body := by
  obtain ⟨hi, hj, delivery, h, delivery', h', hfirst, hsecond, hid⟩ :
      ∃ (hi : 7 < takenOver.length) (hj : 10 < takenOver.length),
        ∃ delivery ∈ handed (worldAt (fun _ => none) takenOver 7) takenOver[7],
          ∃ delivery' ∈ handed (worldAt (fun _ => none) takenOver 10) takenOver[10],
            delivery.attempt = 1 ∧ delivery'.attempt = 2 ∧ delivery'.id = delivery.id := by
    decide +kernel
  refine ⟨hi, hj, delivery, h, delivery', h', hfirst, hsecond, ?_⟩
  exact ((attempts_say_the_same firstMinute firstMinute (fun time => toString time)
    String.toUpper (fun _ _ => "") (fun url => some (url ++ "?wait=true")) (fun _ => none) hi hj
    h h' theSettings 100 200).1 hid).1

end PriceScout.Alertdelivery.Requests
