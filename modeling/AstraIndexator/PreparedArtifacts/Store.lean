import AstraIndexator.Foundation.Program
import AstraIndexator.PreparedArtifacts.Model

/-!
# The artifact store

Objects by their path, and the operations a publisher and a reader perform on
them.  `put` replaces what is there: that an object is never replaced is what
the publisher has to see to.  An operation may also fail before or after its
effect, and a stream may break off.
-/

namespace AstraIndexator

/-- The objects of one bucket, by their path. -/
abbrev ObjectStore := List Char → Option (List UInt8)

namespace ObjectStore

def empty : ObjectStore := fun _ => none

def insert (s : ObjectStore) (path : List Char) (data : List UInt8) : ObjectStore :=
  Function.update s path (some data)

/-- Every object is kept with its bytes. -/
def Keeps (s s' : ObjectStore) : Prop := ∀ path data, s path = some data → s' path = some data

theorem insert_self (s : ObjectStore) (path : List Char) (data : List UInt8) :
    s.insert path data path = some data := Function.update_self ..

theorem insert_of_ne (s : ObjectStore) {path path' : List Char} (data : List UInt8)
    (h : path' ≠ path) : s.insert path data path' = s path' := Function.update_of_ne h ..

theorem Keeps.refl (s : ObjectStore) : Keeps s s := fun _ _ h => h

theorem Keeps.trans {a b c : ObjectStore} (h : Keeps a b) (h' : Keeps b c) : Keeps a c :=
  fun path data hdata => h' path data (h path data hdata)

/-- Writing where nothing else is keeps every object. -/
theorem Keeps.insert {s : ObjectStore} {path : List Char} {data : List UInt8}
    (h : ∀ old, s path = some old → old = data) : Keeps s (s.insert path data) := by
  intro path' data' hdata
  by_cases heq : path' = path
  · subst heq
    rw [insert_self, h data' hdata]
  · rwa [insert_of_ne s data heq]

end ObjectStore

/-- `text.strip("/")`. -/
def stripSlashes (cs : List Char) : List Char :=
  ((cs.dropWhile (· = '/')).reverse.dropWhile (· = '/')).reverse

/-- The object a key names: `SeaweedPreparedArtifactStore._url` without its base. -/
def objectPath (key : String) : Except AstraError (List Char) :=
  let clean := stripSlashes key.toList
  if clean = [] ∨ ['.', '.'] ∈ clean.splitOn '/' then
    .error (valueError "invalid artifact object key")
  else .ok clean

/-! ## Operations -/

/-- What iterating over an object yields, and the exception it ends with. -/
structure ByteStream where
  chunks : List (List UInt8)
  failure : Option AstraError := none

inductive StoreOp
  | assertCurrentLease (token : LeaseToken)
  | objectExists (key : String)
  | put (key : String) (data : List UInt8) (contentType : String)
  | get (key : String)
  | iterBytes (key : String)

namespace StoreOp

abbrev Result : StoreOp → Type
  | assertCurrentLease _ => Unit
  | objectExists _ => Bool
  | put _ _ _ => Unit
  | get _ => List UInt8
  | iterBytes _ => ByteStream

/-- A way to cut objects into chunks. -/
structure Cut where
  chunks : List UInt8 → List (List UInt8)
  join : ∀ data, (chunks data).flatten = data

def Cut.whole : Cut where
  chunks data := [data]
  join data := by rw [List.flatten_singleton]

/-- Whether the lease check raises, and how an object is cut. -/
abbrev Choice : StoreOp → Type
  | assertCurrentLease _ => Option AstraError
  | iterBytes _ => Cut
  | _ => Unit

def find (s : ObjectStore) (key : String) : Except AstraError (List UInt8) := do
  let path ← objectPath key
  match s path with
  | some data => return data
  | none => throw (fileNotFoundError key)

def exec : (op : StoreOp) → op.Choice → ObjectStore → Except AstraError op.Result × ObjectStore
  | assertCurrentLease _, none, s => (.ok (), s)
  | assertCurrentLease _, some e, s => (.error e, s)
  | objectExists key, _, s => ((objectPath key).map fun path => (s path).isSome, s)
  | put key data _, _, s =>
    match objectPath key with
    | .ok path => (.ok (), s.insert path data)
    | .error e => (.error e, s)
  | get key, _, s => (find s key, s)
  | iterBytes key, cut, s => ((find s key).map fun data => { chunks := cut.chunks data }, s)

/-- A stream that breaks off after some chunks. -/
def interrupt (chunks : Nat) (e : AstraError) : (op : StoreOp) → op.Result → op.Result
  | iterBytes _, stream => { chunks := stream.chunks.take chunks, failure := some e }
  | assertCurrentLease _, r => r
  | objectExists _, r => r
  | put _ _ _, r => r
  | get _, r => r

/-- What can happen to an operation: it is performed, it is refused, its answer is lost
after it was performed, or its stream breaks off. -/
inductive Fault (op : StoreOp)
  | none (c : op.Choice)
  | refused (e : AstraError)
  | lost (c : op.Choice) (e : AstraError)
  | interrupted (c : op.Choice) (chunks : Nat) (e : AstraError)

def execFaulty (op : StoreOp) : Fault op → ObjectStore → Except AstraError op.Result × ObjectStore
  | .none c, s => op.exec c s
  | .refused e, s => (.error e, s)
  | .lost c e, s => (.error e, (op.exec c s).2)
  | .interrupted c chunks e, s => ((op.exec c s).1.map (interrupt chunks e op), (op.exec c s).2)

end StoreOp

abbrev StoreProg (α : Type) := Prog StoreOp StoreOp.Result AstraError α

namespace StoreProg

open Prog

/-- `SeaweedPreparedArtifactStore.put_if_absent`: the check and the write are two requests. -/
def putIfAbsent (key : String) (data : List UInt8) (contentType : String) : StoreProg Bool := do
  if ← call (.objectExists key) then
    return false
  call (StoreOp.put key data contentType)
  return true

end StoreProg

end AstraIndexator
