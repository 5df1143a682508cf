import DocQuery.Builder.Read
import DocQuery.Builder.Write

/-!
# DocQuery.Store

Sending requests to a store and reading its responses as documents.
-/

namespace DocQuery

/-- A store, by the four requests it answers in a monad `m`. -/
structure DocumentStore (m : Type → Type) where
  query : QueryRequest → m (Except ServiceError ReadResponse)
  scan : ScanRequest → m (Except ServiceError ReadResponse)
  update : UpdateRequest → m (Except ServiceError WriteResponse)
  delete : DeleteRequest → m (Except ServiceError WriteResponse)

/-- The documents of returned items; one that has no document fails all. -/
def documentsOf (items : List Item) : Except RequestError (List Document) :=
  match items.mapM Item.toDocument? with
  | some documents => .ok documents
  | none => .error .unrepresentable

/-- The document of returned attributes, if any were returned. -/
def documentOf? (attributes : Item) : Except RequestError (Option Document) :=
  if attributes.isEmpty then .ok none
  else
    match attributes.toDocument? with
    | some document => .ok (some document)
    | none => .error .unrepresentable

variable {m : Type → Type} [Monad m]

/-- Send a request that could be built and read the response; nothing is sent otherwise. -/
def send {ρ σ α : Type} (request : Except RequestError ρ)
    (call : ρ → m (Except ServiceError σ)) (read : σ → Except RequestError α) :
    m (Except RequestError α) :=
  match request with
  | .error error => return .error error
  | .ok request => do
    match ← call request with
    | .error error => return .error (.store error)
    | .ok response => return read response

namespace QueryBuilder

/-- All matching documents. -/
def exec (b : QueryBuilder) (store : DocumentStore m) :
    m (Except RequestError (List Document)) :=
  send b.build store.query fun response => documentsOf response.items

/-- The first of the matching documents. -/
def execOne (b : QueryBuilder) (store : DocumentStore m) :
    m (Except RequestError (Option Document)) :=
  return (← b.exec store).map List.head?

/-- How many documents match. -/
def count (b : QueryBuilder) (store : DocumentStore m) : m (Except RequestError Int32) :=
  send b.buildCount store.query fun response => .ok response.count

end QueryBuilder

namespace ScanBuilder

/-- All documents the filters let through. -/
def exec (b : ScanBuilder) (store : DocumentStore m) :
    m (Except RequestError (List Document)) :=
  send b.build store.scan fun response => documentsOf response.items

/-- How many documents the filters let through. -/
def count (b : ScanBuilder) (store : DocumentStore m) : m (Except RequestError Int32) :=
  send b.buildCount store.scan fun response => .ok response.count

end ScanBuilder

/-- Write, and read back the attributes that were asked for. -/
def UpdateBuilder.exec (b : UpdateBuilder) (store : DocumentStore m) :
    m (Except RequestError (Option Document)) :=
  send b.build store.update fun response => documentOf? response.attributes

/-- Delete, and read back the attributes that were asked for. -/
def DeleteBuilder.exec (b : DeleteBuilder) (store : DocumentStore m) :
    m (Except RequestError (Option Document)) :=
  send b.build store.delete fun response => documentOf? response.attributes

end DocQuery
