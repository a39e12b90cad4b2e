import Scaffold.Store.Sink

/-!
# Storing a unit

A unit is stored by writing it to a sink and closing the sink, whether or not
the writing failed.  Both failures are reported, the one of writing first.  An
`Outlet` is what storing needs to know about a sink.
-/

namespace Scaffold

/-- A sink with a state, as storing sees it.  A failure has a type of its own. -/
structure Outlet (ε σ : Type) where
  /-- Keep a text under a destination. -/
  write : String → String → σ → Option ε × σ
  /-- Give up the sink. -/
  close : σ → Option ε × σ

/-- How storing a unit failed. -/
inductive StoreFault (ε : Type) where
  | write (failure : ε)
  | close (failure : ε)
  | both (write close : ε)
  deriving DecidableEq, Repr

/-- What is said about a failure to store a unit. -/
def StoreFault.message {ε : Type} (say : ε → String) : StoreFault ε → String
  | .write failure => say failure
  | .close failure => "close sink: " ++ say failure
  | .both unwritten unclosed => say unwritten ++ "\n" ++ "close sink: " ++ say unclosed

/-- A unit written to a sink, and the sink closed. -/
def Outlet.store {ε σ : Type} (p : Outlet ε σ) (dest code : String) (s : σ) :
    Option (StoreFault ε) × σ :=
  let (unwritten, s) := p.write dest code s
  let (unclosed, s) := p.close s
  let fault := match unwritten, unclosed with
    | none, none => none
    | some w, none => some (.write w)
    | none, some c => some (.close c)
    | some w, some c => some (.both w c)
  (fault, s)

/-- The outlet of a sink of a workshop.  Its state also gathers the records. -/
def Workshop.outlet (sink : Nat) (stamp : Stamp) :
    Outlet SinkFault (Workshop × List Log.Record) where
  write dest code := fun (w, records) =>
    let step := w.write sink stamp dest code
    (match step.outcome with
      | .ok () => none
      | .error fault => some fault, step.after, records ++ step.records)
  close := fun (w, records) =>
    let step := w.close sink
    (match step.outcome with
      | .ok () => none
      | .error fault => some fault, step.after, records ++ step.records)

/-- A unit stored in a sink of a workshop, and the sink closed. -/
def Workshop.store (w : Workshop) (sink : Nat) (stamp : Stamp) (dest code : String) :
    Option (StoreFault SinkFault) × Workshop × List Log.Record :=
  (Workshop.outlet sink stamp).store dest code (w, [])

end Scaffold
