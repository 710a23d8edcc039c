import PatternQuery.Endpoint.Script

/-!
# A scripted endpoint

An `Exchange` is an endpoint that answers by a script. Requests are numbered and logged in the order
in which they are issued. They are answered at once or, while the exchange holds requests, kept
until they are released.
-/

namespace PatternQuery

/-- A request as it was handed to the endpoint. -/
structure LogEntry where
  number : Nat
  batch : Batch
  held : Bool
  deriving DecidableEq

/-- A request that is kept. -/
structure HeldRequest where
  number : Nat
  generation : Nat
  deriving DecidableEq, Repr

structure Exchange where
  script : Script := {}
  holding : Bool := false
  /-- The number of the next request. -/
  next : Nat := 0
  /-- The generation of the last request that was handed over. -/
  handed : Nat := 0
  held : List HeldRequest := []
  log : List LogEntry := []

namespace Exchange

/-- What the exchange does with a batch now. -/
def endpoint (x : Exchange) : Endpoint := fun f =>
  if x.holding then none else some (x.script.outcome f.batch)

/-- Numbers a batch and logs it. -/
def record (batch : Batch) (x : Exchange) : Nat × Exchange :=
  (x.next,
    { x with
      next := x.next + 1
      log := x.log ++ [{ number := x.next, batch, held := x.holding }] })

/-- Takes a request over: it is answered, or kept for later. -/
def take (f : Flight) (x : Exchange) (l : Lifecycle) : Exchange × Lifecycle :=
  let (number, x) := x.record f.batch
  let x := { x with handed := f.generation }
  if x.holding then
    ({ x with held := x.held ++ [{ number, generation := f.generation }] }, l)
  else (x, l.consult x.endpoint f.generation)

/-- Takes over all requests that have been issued since the last time. -/
def handOver (x : Exchange) (l : Lifecycle) : Exchange × Lifecycle :=
  (l.flights.filter fun f => x.handed < f.generation).foldl (fun (x, l) f => x.take f l) (x, l)

/-- Whether a request still waits for its answer. -/
def isWaiting (l : Lifecycle) (h : HeldRequest) : Bool :=
  match l.flight? h.generation with
  | some f => f.outcome.isNone
  | none => false

/-- Answers the requests that are kept, or only the one with a number. Gives back the numbers of
those that had not been cancelled. -/
def release (number : Option Nat) (x : Exchange) (l : Lifecycle) :
    List Nat × Exchange × Lifecycle :=
  let chosen (h : HeldRequest) : Bool := number.isNone || number == some h.number
  let released := x.held.filter fun h => chosen h && isWaiting l h
  let answer (l : Lifecycle) (h : HeldRequest) : Lifecycle :=
    l.consult { x with holding := false }.endpoint h.generation
  (released.map HeldRequest.number,
    { x with held := x.held.filter fun h => !chosen h },
    released.foldl answer l)

def clearLog (x : Exchange) : Exchange := { x with log := [] }

end Exchange

end PatternQuery
