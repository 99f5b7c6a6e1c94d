import NodeFleet.Store.Program

/-!
# Exchanges with the cluster

The operations on cluster objects, each made of one call or two.  An exchange
ends when a call is not answered.  A call on an object without a name is refused
before it is made.
-/

namespace NodeFleet.Store

/-- A program that ends when a call is not answered. -/
abbrev Exchange : Type → Type := OptionT Program

namespace Exchange

def ask (request : Request) : Exchange (Except ApiFailure request.Reply) :=
  OptionT.mk (Program.ask request)

/-- Makes one call, whose refusals are errors of the store. -/
def call (request : Request) : Exchange (Except StoreError request.Reply) := do
  return (← ask request).mapError .call

/-- The objects of a namespace that carry the labels of a selector. -/
def list (kind : Kind) (space selector : String) :
    Exchange (Except StoreError (List kind.Object)) :=
  call (.list kind space selector)

def get (kind : Kind) (space name : String) : Exchange (Except StoreError kind.Object) :=
  if name = "" then return .error (.call .unnamed) else call (.get kind space name)

def get? (kind : Kind) (space name : String) :
    Exchange (Except StoreError (Option kind.Object)) := do
  match ← get kind space name with
  | .ok object => return .ok (some object)
  | .error (.call (.refused status)) =>
      if status.saysNotFound then return .ok none
      else return .error (.call (.refused status))
  | .error error => return .error error

def create (kind : Kind) (space : String) (object : kind.Object) :
    Exchange (Except StoreError kind.Object) :=
  call (.create kind space object)

/-- Deletes an object, which need not be there. -/
def delete (kind : Kind) (space name : String) : Exchange (Except StoreError Unit) := do
  if name = "" then return .error (.call .unnamed)
  match ← call (.delete kind space name) with
  | .ok () => return .ok ()
  | .error error => return if error.isNotFound then .ok () else .error error

def patch (kind : Kind) (space name : String) (change : Json) :
    Exchange (Except StoreError kind.Object) :=
  if name = "" then return .error (.call .unnamed) else call (.patch kind space name change)

/-- Reads an object and replaces its status by that of its updated form, on the
condition that nobody has written the object in between. -/
def updateStatus (kind : Kind) (space name : String) (update : kind.Object → kind.Object) :
    Exchange (Except StoreError kind.Object) := do
  match ← get kind space name with
  | .error error => return .error error
  | .ok latest => call (.replaceStatus kind space name (update latest))

def record (event : Event) : Exchange (Except StoreError Unit) := do
  return (← ask (.publish event)).mapError .event

def isDefined (kind : Kind) : Exchange (Except StoreError Bool) := do
  match ← ask (.findDefinition kind) with
  | .ok () => return .ok true
  | .error (.refused status) =>
      if status.saysNotFound then return .ok false else return .error (.call (.refused status))
  | .error failure => return .error (.call failure)

end Exchange

end NodeFleet.Store
