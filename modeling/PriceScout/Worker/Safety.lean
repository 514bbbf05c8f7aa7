import PriceScout.Library.RegularExpressions
import PriceScout.Worker.Environment

/-!
The targets that a worker goes to and the actions that it takes there.
-/

namespace PriceScout.Worker.Safety

open PriceScout.Library.Attempts
open PriceScout.Library.JsStrings
open PriceScout.Library.Numbers
open PriceScout.Library.RegularExpressions
open PriceScout.Worker.Contracts
open PriceScout.Worker.Environment

def unsafePorts : List String :=
  ["21", "22", "23", "25", "53", "2375", "2376", "3306", "5432", "6379", "11211"]

/-- `/\b(?:add to (?:cart|bag|basket)|buy(?: now)?|...)\b/i` -/
def forbiddenInteraction : Regex :=
  .all [.wordBoundary,
    .oneOf
      [.seq (.literalIgnoreCase "add to ")
        (.oneOf (["cart", "bag", "basket"].map .literalIgnoreCase)),
       .seq (.literalIgnoreCase "buy") (.opt (.literalIgnoreCase " now")),
       .oneOf (["purchase", "checkout", "place order", "submit payment", "pay now",
        "complete order", "confirm order", "order now", "subscribe"].map .literalIgnoreCase)],
    .wordBoundary]

/-- `Number` of a part of an address, which has no signs, points and exponents. -/
def octet (part : String) : Option Nat :=
  if part.toList.all isAsciiDigit then some (digitsValue part.toList) else none

def isPrivateIPv4 (value : String) : Bool :=
  match (split '.' value).map octet with
  | [some a, some b, some c, some _] =>
      a = 0 || a = 10 || a = 127 ||
      (a = 169 && b = 254) ||
      (a = 172 && b ≥ 16 && b ≤ 31) ||
      (a = 192 && b = 168) ||
      (a = 192 && b = 0 && (c = 0 || c = 2)) ||
      (a = 198 && (b = 18 || b = 19)) ||
      (a = 198 && b = 51 && c = 100) ||
      (a = 203 && b = 0 && c = 113) ||
      (a = 100 && b ≥ 64 && b ≤ 127) ||
      a ≥ 224
  | _ => false

/-- `/^::ffff:(\d+\.\d+\.\d+\.\d+)$/` -/
def mappedAddress : Regex :=
  .all [.atStart, .literal "::ffff:", .plus .digit, .char '.', .plus .digit, .char '.',
    .plus .digit, .char '.', .plus .digit, .atEnd]

variable (runtime : Runtime)

/-- A mapped address is no mapped address again, and as little one of IPv6. -/
def isPrivateAddress (address : String) : Bool :=
  let value := runtime.toLowerCase address
  if value = "::1" ∨ value = "::" ∨ startsWith value "fe80:" ∨ startsWith value "fc" ∨
      startsWith value "fd" ∨ startsWith value "ff" ∨ value = "2001:db8::" ∨
      startsWith value "2001:db8:" then true
  else if test mappedAddress value.toList then
    isPrivateIPv4 (String.ofList (value.toList.drop "::ffff:".toList.length))
  else isPrivateIPv4 value

variable {W : Type} (outside : Outside W)

def validateTargetUrl (input : String) (allowedPrivateHosts : List String) :
    Attempt JsError W Url :=
  match runtime.parseUrl input with
  | none => throw (.safetyError "Target URL is invalid")
  | some url => do
      if url.protocol ≠ "http:" ∧ url.protocol ≠ "https:" then
        throw (.safetyError "Only HTTP and HTTPS product URLs are supported")
      if url.username ≠ "" ∨ url.password ≠ "" then
        throw (.safetyError "Credentials in product URLs are not allowed")
      if unsafePorts.contains url.port then
        throw (.safetyError ("Port " ++ url.port ++ " is not allowed"))
      let hostname := runtime.toLowerCase url.hostname
      let privateException := allowedPrivateHosts.contains hostname
      if runtime.isIP hostname then
        if !privateException then
          throw (.safetyError "IP-literal product URLs are not allowed")
      else
        let addresses ← tryCatch (outside.lookup hostname) fun _ =>
          throw (.safetyError ("Unable to resolve target host " ++ hostname))
        if addresses.isEmpty then
          throw (.safetyError ("Target host " ++ hostname ++ " has no addresses"))
        if !privateException && addresses.any (isPrivateAddress runtime) then
          throw (.safetyError "Target resolves to a private or special-use address")
      return url

def allowedMethods : List String :=
  ["click", "selectoptionfromdropdown", "scrollto"]

def assertSafeAction (action : CachedAction) : Except JsError Unit := do
  let method := runtime.toLowerCase (action.method.getD "click")
  if !allowedMethods.contains method then
    throw (.safetyError ("Compiled action method " ++ method ++ " is not permitted"))
  if test forbiddenInteraction action.description.toList then
    throw (.safetyError "Purchase and checkout actions are never permitted")
  if !startsWith action.selector "xpath=" && !startsWith action.selector "css=" then
    throw (.safetyError "Only XPath and CSS selectors are permitted in cached actions")

def assertSameOrigin (actual : String) (expected : Url) : Except JsError Unit :=
  match runtime.parseUrl actual with
  | none => throw (.error (runtime.invalidUrl actual))
  | some actualUrl =>
      if actualUrl.origin ≠ expected.origin then
        throw (.safetyError ("Navigation left the allowed origin (" ++ actualUrl.origin ++ ")"))
      else return ()

/-- The texts of the element that an action is about, when there is one. -/
def readActionTarget (session : Session) (action : CachedAction) :
    Attempt JsError W (Option String) := do
  let count ← outside.count session action.selector
  if count = 0 then
    return none
  let innerText ← outside.innerText session action.selector
  let innerHtml ← outside.innerHtml session action.selector
  return some (action.description ++ "\n" ++ innerText ++ "\n" ++ slice 20000 innerHtml)

/-- Inspect the element that an action selects. A selector that selects nothing
is no error: a repair hands it on to Stagehand, which may replace it. -/
def assertSafeActionTarget (session : Session) (action : CachedAction) :
    Attempt JsError W Bool := do
  let evidence ← tryCatch (readActionTarget outside session action) fun _ => pure none
  match evidence with
  | none => return false
  | some evidence =>
      if test forbiddenInteraction evidence.toList then
        throw (.safetyError "The located action target appears to purchase, order, or subscribe")
      else return true

/-- `BrowserRun.replay`. -/
def replay (session : Session) (action : CachedAction) : Attempt JsError W (List CachedAction) := do
  let result ← outside.stagehandAct session
    { action with method := given action.method }
  if !result.success then
    throw (.error (if result.message = "" then "Cached action failed" else result.message))
  return result.actions

/-- Every action that Stagehand reports to have taken is inspected as well. -/
def assertSafeReplacements (session : Session) : List CachedAction → Attempt JsError W Unit
  | [] => return ()
  | replacement :: rest => do
      check (assertSafeAction runtime replacement)
      let _ ← assertSafeActionTarget outside session replacement
      assertSafeReplacements session rest

/-- Execute one action, with checks of the cached and of the healed target. -/
def replaySafeAction (session : Session) (action : CachedAction) (expectedOrigin : Url) :
    Attempt JsError W (List CachedAction) := do
  check (assertSafeAction runtime action)
  let cachedTargetResolved ← assertSafeActionTarget outside session action
  let executed ← tryCatch (replay outside session action) fun error =>
    if cachedTargetResolved then throw error
    else throw (.staleActionError
      ("Cached action target no longer resolves: " ++ error.message))
  let url ← ask (outside.url session)
  check (assertSameOrigin runtime url expectedOrigin)
  assertSafeReplacements runtime outside session executed
  return executed

/-- Go to a page and stay on its site. -/
def goto (session : Session) (href : String) (target : Url) : Attempt JsError W Unit := do
  outside.goto session href
  let url ← ask (outside.url session)
  check (assertSameOrigin runtime url target)

end PriceScout.Worker.Safety
