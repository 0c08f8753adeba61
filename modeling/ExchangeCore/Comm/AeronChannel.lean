import ExchangeCore.Framework.Bytes
import ExchangeCore.Framework.HashMap
import Mathlib.Logic.Relation

/-!
# Request and response over Aeron

`AeronChannel` (`ubs_core/comm/aeron_channel.rs`) and the loop of the service at the other end
(`bin/ubscore_aeron_service.rs`).  Any number of channels publish to one request stream and
subscribe to one response stream.  A channel numbers its calls from 1 on, puts the number in front
of the payload, and gives a response to the call that is pending under the number in front of it;
the responses of all channels reach every channel.

`AeronSystem` is the channels, the two streams and the service, and `Step` any step of any of them.
What a message is about is not in its bytes: the messages in the streams are labelled here with the
call they belong to, and no step looks at the label.  The service is a parameter.

A channel that is not connected refuses a call and changes nothing, so only connected ones are
called here.  The queue of registrations is bounded in the source; a sender waits while it is full.
-/

namespace ExchangeCore

/-! ## Messages -/

/-- The message around a payload: the correlation id in 8 bytes, then the payload. -/
def frame (correlationId : UInt64) (payload : Bytes) : Bytes := Bytes.ofU64 correlationId ++ payload

/-- `parse_request`, and the same in `CorrelationHandler`. -/
def parseFrame (buffer : Bytes) : Option (UInt64 × Bytes) :=
  if buffer.length < 8 then none
  else some (Bytes.toU64 (buffer.take 8), buffer.drop 8)

@[simp] lemma parseFrame_frame (correlationId : UInt64) (payload : Bytes) :
    parseFrame (frame correlationId payload) = some (correlationId, payload) := by
  have hlen : ¬(frame correlationId payload).length < 8 := by simp [frame]
  rw [parseFrame, if_neg hlen, frame, List.take_left' (Bytes.length_ofU64 _),
    List.drop_left' (Bytes.length_ofU64 _), Bytes.toU64_ofU64]

inductive SendError
  | notConnected
  | backPressured
  | adminAction
  | closed
  | maxPositionExceeded
  | unknown (position : Int64)
  | aeronError (message : String)
  deriving DecidableEq

/-- The error of a negative result of `offer`. -/
def offerError (position : Int64) : SendError :=
  if position = -1 then .notConnected
  else if position = -2 then .backPressured
  else if position = -3 then .adminAction
  else if position = -4 then .closed
  else if position = -5 then .maxPositionExceeded
  else .unknown position

/-! ## The system -/

/-- A connected `AeronChannel` and its poll thread; `τ` are the calls. -/
structure AeronChannel (τ : Type) where
  nextCorrelationId : UInt64
  /-- The registrations sent to the poll thread. -/
  pendingTx : List (UInt64 × τ)
  pending : HashMap UInt64 τ
  /-- How far the subscription has read the response stream. -/
  position : ℕ

/-- A call of `send_and_receive`, on the channel `channel`. -/
structure ChannelCall (ι : Type) where
  channel : ι
  correlationId : UInt64
  payload : Bytes
  deriving DecidableEq

/-- The channels `ι`, their calls `τ`, the streams and the service. -/
structure AeronSystem (ι τ σ : Type) where
  channels : ι → Option (AeronChannel τ)
  calls : τ → Option (ChannelCall ι)
  offered : τ → Bool
  result : τ → Option (Except SendError Bytes)
  /-- The requests the service has not read yet. -/
  requests : List (τ × Bytes)
  /-- All responses published so far. -/
  responses : List (τ × Bytes)
  /-- What the service has handled: the call, its payload and the response produced for it. -/
  handled : List (τ × Bytes × Bytes)
  service : σ

namespace AeronSystem

variable {ι τ σ : Type} [DecidableEq ι] [DecidableEq τ]

/-- Nothing is connected. -/
def start (s : σ) : AeronSystem ι τ σ where
  channels _ := none
  calls _ := none
  offered _ := false
  result _ := none
  requests := []
  responses := []
  handled := []
  service := s

/-- `new` and `connect`. -/
def connect (sys : AeronSystem ι τ σ) (i : ι) : AeronSystem ι τ σ :=
  { sys with
    channels := Function.update sys.channels i
      (some ⟨1, [], HashMap.empty, sys.responses.length⟩) }

/-- The first half of `send_and_receive`: `next_id`, and the registration of the call. -/
def send (sys : AeronSystem ι τ σ) (i : ι) (ch : AeronChannel τ) (t : τ) (payload : Bytes) :
    AeronSystem ι τ σ :=
  let correlationId := ch.nextCorrelationId
  { sys with
    channels := Function.update sys.channels i
      (some { ch with
        nextCorrelationId := correlationId + 1
        pendingTx := ch.pendingTx ++ [(correlationId, t)] })
    calls := Function.update sys.calls t (some ⟨i, correlationId, payload⟩) }

/-- The second half: `offer`, which answers a position.  If it is negative the call fails, else it
waits. -/
def offer (sys : AeronSystem ι τ σ) (t : τ) (c : ChannelCall ι) (position : Int64) :
    AeronSystem ι τ σ :=
  let sys := { sys with offered := Function.update sys.offered t true }
  if position < 0 then
    { sys with result := Function.update sys.result t (some (.error (offerError position))) }
  else { sys with requests := sys.requests ++ [(t, frame c.correlationId c.payload)] }

/-- The call has waited too long. -/
def timeout (sys : AeronSystem ι τ σ) (t : τ) : AeronSystem ι τ σ :=
  { sys with result := Function.update sys.result t (some (.error (.aeronError "Timeout"))) }

/-- The service reads a request and handles it.  An empty response is not published, and one that
the stream does not take is lost. -/
def serve (handle : σ → Bytes → σ × Bytes) (sys : AeronSystem ι τ σ) (t : τ) (message : Bytes)
    (rest : List (τ × Bytes)) (published : Bool) : AeronSystem ι τ σ :=
  let sys := { sys with requests := rest }
  match parseFrame message with
  | none => sys
  | some (correlationId, payload) =>
      let (service, response) := handle sys.service payload
      { sys with
        service := service
        handled := sys.handled ++ [(t, payload, response)]
        responses :=
          if response ≠ [] ∧ published = true then
            sys.responses ++ [(t, frame correlationId response)]
          else sys.responses }

/-- The poll thread takes a registration. -/
def register (sys : AeronSystem ι τ σ) (i : ι) (ch : AeronChannel τ) (correlationId : UInt64)
    (t : τ) (rest : List (UInt64 × τ)) : AeronSystem ι τ σ :=
  { sys with
    channels := Function.update sys.channels i
      (some { ch with pendingTx := rest, pending := ch.pending.insert correlationId t }) }

/-- `CorrelationHandler`, on the next response: the call it is for, with the bytes, if one is
pending. -/
def dispatch (ch : AeronChannel τ) (message : Bytes) : AeronChannel τ × Option (τ × Bytes) :=
  let ch := { ch with position := ch.position + 1 }
  match parseFrame message with
  | none => (ch, none)
  | some (correlationId, bytes) =>
      match ch.pending.get? correlationId with
      | none => (ch, none)
      | some t => ({ ch with pending := ch.pending.erase correlationId }, some (t, bytes))

/-- The poll thread takes a response; a call that still waits returns it. -/
def poll (sys : AeronSystem ι τ σ) (i : ι) (ch : AeronChannel τ) (message : Bytes) :
    AeronSystem ι τ σ :=
  let (ch, delivery) := dispatch ch message
  { sys with
    channels := Function.update sys.channels i (some ch)
    result :=
      match delivery with
      | none => sys.result
      | some (t, bytes) =>
          if sys.result t = none then Function.update sys.result t (some (.ok bytes))
          else sys.result }

/-- One step of the system; `P` may restrict when a call is sent. -/
inductive Step (handle : σ → Bytes → σ × Bytes) (P : AeronSystem ι τ σ → ι → Prop) :
    AeronSystem ι τ σ → AeronSystem ι τ σ → Prop
  | connect (sys) (i : ι) (hi : sys.channels i = none) : Step handle P sys (sys.connect i)
  | send (sys) (i : ι) (ch) (t : τ) (payload) (hch : sys.channels i = some ch)
      (ht : sys.calls t = none) (hP : P sys i) : Step handle P sys (sys.send i ch t payload)
  | offer (sys) (t : τ) (c) (position) (hc : sys.calls t = some c)
      (hoffered : sys.offered t = false) : Step handle P sys (sys.offer t c position)
  | timeout (sys) (t : τ) (hoffered : sys.offered t = true) (hwaits : sys.result t = none) :
      Step handle P sys (sys.timeout t)
  | serve (sys) (t : τ) (message rest published) (hreq : sys.requests = (t, message) :: rest) :
      Step handle P sys (sys.serve handle t message rest published)
  /-- The service changes by itself. -/
  | other (sys) (s : σ) : Step handle P sys { sys with service := s }
  | register (sys) (i : ι) (ch) (correlationId) (t : τ) (rest) (hch : sys.channels i = some ch)
      (hreg : ch.pendingTx = (correlationId, t) :: rest) :
      Step handle P sys (sys.register i ch correlationId t rest)
  | poll (sys) (i : ι) (ch) (t : τ) (message) (hch : sys.channels i = some ch)
      (hresp : sys.responses[ch.position]? = some (t, message)) :
      Step handle P sys (sys.poll i ch message)

/-- The systems reached from `start`. -/
def Reachable (handle : σ → Bytes → σ × Bytes) (P : AeronSystem ι τ σ → ι → Prop) (s₀ : σ)
    (sys : AeronSystem ι τ σ) : Prop :=
  Relation.ReflTransGen (Step handle P) (start s₀) sys

/-! ## Correlation -/

/-- What a call returns is what the service has produced for its payload. -/
def Correlated (sys : AeronSystem ι τ σ) : Prop :=
  ∀ t c bytes, sys.calls t = some c → sys.result t = some (.ok bytes) →
    (t, c.payload, bytes) ∈ sys.handled

/-- The correlation id that channel `i` uses next is free: no call that still waits has it, and
nothing with it is on its way to the service or to channel `i`. -/
def IdFree (sys : AeronSystem ι τ σ) (i : ι) : Prop :=
  ∀ ch, sys.channels i = some ch →
    (∀ t c, sys.calls t = some c → sys.result t = none →
      c.correlationId ≠ ch.nextCorrelationId) ∧
    (∀ t message payload, (t, message) ∈ sys.requests →
      parseFrame message ≠ some (ch.nextCorrelationId, payload)) ∧
    ∀ k t message bytes, ch.position ≤ k → sys.responses[k]? = some (t, message) →
      parseFrame message ≠ some (ch.nextCorrelationId, bytes)

end AeronSystem

end ExchangeCore
