import Mathlib.Data.Finset.Basic
import PriceScout.Library.Channels
import PriceScout.Library.JsonTexts
import PriceScout.Library.Runs

/-!
The event broker and the consoles that stream from it. Publishers range over the
subscribers under the read lock, and subscribing and unsubscribing take the write
lock, while every console drains its channel at its own pace.
-/

namespace PriceScout.Events.Broker

open PriceScout.Library.Channels
open PriceScout.Library.JsonDocuments
open PriceScout.Library.JsonTexts
open PriceScout.Library.Runs

/-- An event. Its time is the text that the time is marshalled as. -/
structure Event where
  type : String
  atTime : String
  data : Option Json

def Event.json (event : Event) : Json :=
  .obj ([("type", .str event.type), ("at", .str event.atTime)] ++
    event.data.toList.map fun data => ("data", data))

/-- What one call of `Publish` sends. Equal texts are told apart by the call. -/
structure Payload where
  number : Nat
  text : List Char
deriving DecidableEq

/-- What a console writes to its response. A receive from a closed channel gives no payload. -/
inductive Frame where
  | connected
  | update (payload : Payload)
  | empty
  | keepalive
deriving DecidableEq

inductive Phase where
  | subscribed
  | streaming
  | leaving
  | gone
deriving DecidableEq

/-- A call of `streamEvents`, from its subscription on. -/
structure Console where
  channel : Channel Payload 32
  phase : Phase
  body : List Frame

/-- A call of `Publish`, from its read lock on. The subscribers it ranges over do not
change under the lock, and they are visited in any order. -/
structure Publication where
  payload : Payload
  audience : Finset Nat
  remaining : Finset Nat
  finished : Bool

/-- The broker with all that has subscribed and published so far. A channel is
known by the number of its console. -/
structure System where
  subscribers : Finset Nat
  consoles : List Console
  publications : List Publication
  connections : Int
  panicked : Bool

def System.new : System :=
  ⟨∅, [], [], 0, false⟩

inductive Action where
  | subscribe
  | connect (c : Nat)
  | publish (event : Event)
  | offer (number c : Nat)
  | finish (number : Nat)
  | receive (c : Nat)
  | keepalive (c : Nat)
  | disconnect (c : Nat)
  | unsubscribe (c : Nat)

namespace System

def readLocked (s : System) : Bool :=
  s.publications.any fun p => !p.finished

def setConsole (s : System) (c : Nat) (k : Console) : System :=
  { s with consoles := s.consoles.set c k }

def setPublication (s : System) (number : Nat) (p : Publication) : System :=
  { s with publications := s.publications.set number p }

/-- The write lock waits until no publisher holds the read lock. -/
def subscribe (s : System) : System :=
  if s.readLocked then s
  else
    { s with
      subscribers := insert s.consoles.length s.subscribers
      consoles := s.consoles ++ [⟨.make, .subscribed, []⟩] }

def connect (s : System) (c : Nat) (k : Console) : System :=
  if k.phase = .subscribed then
    { s.setConsole c { k with phase := .streaming, body := k.body ++ [.connected] } with
      connections := s.connections + 1 }
  else s

def publish (s : System) (event : Event) : System :=
  { s with
    publications := s.publications ++ [⟨⟨s.publications.length, marshal event.json⟩,
      s.subscribers, s.subscribers, false⟩] }

/-- One round of the publisher's loop. Sending on a closed channel panics. -/
def offer (s : System) (number c : Nat) (p : Publication) (k : Console) : System :=
  if c ∈ p.remaining then
    if k.channel.closed then { s with panicked := true }
    else
      (s.setPublication number { p with remaining := p.remaining.erase c }).setConsole c
        { k with channel := k.channel.offer p.payload }
  else s

def finish (s : System) (number : Nat) (p : Publication) : System :=
  if p.remaining = ∅ then s.setPublication number { p with finished := true } else s

def receive (s : System) (c : Nat) (k : Console) : System :=
  if k.phase = .streaming then
    match k.channel.buffer with
    | payload :: _ =>
        s.setConsole c { k with channel := k.channel.drop, body := k.body ++ [.update payload] }
    | [] =>
        if k.channel.closed then s.setConsole c { k with body := k.body ++ [.empty] } else s
  else s

def keepalive (s : System) (c : Nat) (k : Console) : System :=
  if k.phase = .streaming then s.setConsole c { k with body := k.body ++ [.keepalive] } else s

/-- The request ends, and the gauge is put down before the channel is given up. -/
def disconnect (s : System) (c : Nat) (k : Console) : System :=
  if k.phase = .streaming then
    { s.setConsole c { k with phase := .leaving } with connections := s.connections - 1 }
  else s

def unsubscribe (s : System) (c : Nat) (k : Console) : System :=
  if s.readLocked || k.phase ≠ .leaving then s
  else if c ∈ s.subscribers then
    { s.setConsole c { k with phase := .gone, channel := k.channel.close } with
      subscribers := s.subscribers.erase c }
  else s.setConsole c { k with phase := .gone }

/-- The step of the console, if there is one. -/
def onConsole (s : System) (c : Nat) (f : Console → System) : System :=
  (s.consoles[c]?).elim s f

def onPublication (s : System) (number : Nat) (f : Publication → System) : System :=
  (s.publications[number]?).elim s f

end System

/-- One step of the broker, a publisher or a console. An action that cannot be taken
changes nothing. -/
def step (s : System) : Action → System
  | .subscribe => s.subscribe
  | .connect c => s.onConsole c (s.connect c)
  | .publish event => s.publish event
  | .offer number c => s.onPublication number fun p => s.onConsole c (s.offer number c p)
  | .finish number => s.onPublication number (s.finish number)
  | .receive c => s.onConsole c (s.receive c)
  | .keepalive c => s.onConsole c (s.keepalive c)
  | .disconnect c => s.onConsole c (s.disconnect c)
  | .unsubscribe c => s.onConsole c (s.unsubscribe c)

end PriceScout.Events.Broker
