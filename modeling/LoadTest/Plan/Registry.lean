/-
Transformers of requests, and the table that dispatches to them.

A transformer says which kind of request it is for and turns a request into a
fragment. The table holds at most one transformer per kind of request; nothing
forces a transformer to stand under the kind it is for, which is why it checks
the request that it is handed.
-/
import LoadTest.Plan.Fragment

set_option autoImplicit false

namespace LoadTest

/-- A builder of fragments. -/
structure RequestTransformer where
  /-- The kind of request it is for. -/
  kind : RequestKind
  /-- The fragment of a request. -/
  transform : ElementDefaults → Request → Build Node

namespace RequestTransformer

/-- The transformer of SOAP requests. -/
def soap : RequestTransformer where
  kind := .soap
  transform d r :=
    match r.expectSoap with
    | .error e => throw e
    | .ok s => ExceptT.lift (Fragment.ofSoap d s)

/-- The transformer of HTTP requests. -/
def http : RequestTransformer where
  kind := .http
  transform d r :=
    match r.expectHttp with
    | .error e => throw e
    | .ok h => ExceptT.lift (Fragment.ofHttp d h)

/-- The transformer that belongs to a kind of request. -/
def forKind : RequestKind → RequestTransformer
  | .soap => soap
  | .http => http

@[simp] theorem kind_forKind (k : RequestKind) : (forKind k).kind = k := by
  cases k <;> rfl

end RequestTransformer

/-- Transformers by kind of request. -/
structure Registry where
  /-- The transformer that requests of a kind are handed to. -/
  get? : RequestKind → Option RequestTransformer

namespace Registry

/-- The table without transformers. -/
def empty : Registry := ⟨fun _ => none⟩

/-- Store a transformer under a kind, and answer with the one it displaces. -/
def register (r : Registry) (kind : RequestKind) (t : RequestTransformer) :
    Option RequestTransformer × Registry :=
  (r.get? kind, ⟨fun k => if k = kind then some t else r.get? k⟩)

/-- Store a transformer under the kind it is for. -/
def registerTransformer (r : Registry) (t : RequestTransformer) :
    Option RequestTransformer × Registry :=
  r.register t.kind t

/-- Take the transformer of a kind out. -/
def remove (r : Registry) (kind : RequestKind) : Option RequestTransformer × Registry :=
  (r.get? kind, ⟨fun k => if k = kind then none else r.get? k⟩)

/-- Transformers stored one after another. -/
def registerAll (r : Registry) (ts : List (RequestKind × RequestTransformer)) : Registry :=
  ts.foldl (fun r t => (r.register t.1 t.2).2) r

/-- The table with each kind's own transformer. -/
def standard : Registry := empty.registerAll (RequestKind.all.map fun k => (k, .forKind k))

instance : Inhabited Registry := ⟨standard⟩

/-- Whether a kind has a transformer. -/
def contains (r : Registry) (kind : RequestKind) : Bool := (r.get? kind).isSome

/-- The kinds with a transformer, in declaration order. -/
def kinds (r : Registry) : List RequestKind := RequestKind.all.filter r.contains

/-- The number of transformers. -/
def size (r : Registry) : Nat := r.kinds.length

/-- Whether there is no transformer. -/
def isEmpty (r : Registry) : Bool := r.kinds.isEmpty

/-- Hand a request to the transformer of its kind. The hand-over is noted; a
missing transformer is an error and leaves no entry. -/
def transform (r : Registry) (d : ElementDefaults) (q : Request) : Build Node :=
  match r.get? q.kind with
  | none => throw (.unregisteredKind q.id q.kind)
  | some t => do
    ExceptT.lift (Logged.event (.transformingRequest q.id q.kind))
    t.transform d q

/-- The fragments of requests, in order; the first failure ends the run. -/
def fragments (r : Registry) (d : ElementDefaults) : List Request → Build (List Node)
  | [] => pure []
  | q :: qs => do
    let n ← r.transform d q
    let ns ← r.fragments d qs
    pure (n :: ns)

theorem get?_standard (k : RequestKind) : standard.get? k = some (.forKind k) := by
  cases k <;> rfl

end Registry

end LoadTest
