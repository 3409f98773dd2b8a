import GrammarCheck.Json.Document

/-! What readers of a document share: the fault of a value of another type, texts and optional values,
passing over a value, and keeping one without looking at it. Only kept values count towards the depth
that a document may have. -/
namespace GrammarCheck.Json

/-- How deep lists and objects may be nested in what is kept. -/
def depthLimit : Nat := 127

/-- Goes one level down, unless a list or object at `place` would be too deep. -/
def descend {α : Type} (depth : Nat) (place : Place) (read : Nat → Except Fault α) : Except Fault α :=
  match depth with
  | 0 => .error (Cause.tooDeep.next place)
  | depth + 1 => read depth

namespace Node

def place : Node → Place
  | .missing => []
  | .stray place => place
  | .scalar place _ => place
  | .list place _ => place
  | .object place _ => place

/-- The fault of finding this where a value of another type is expected. -/
def mismatch (expected : String) : Node → Fault
  | .missing => Cause.endInValue.here []
  | .stray place => Cause.expectedValue.next place
  | .scalar _ literal =>
    match literal.value with
    | .ok found => (Cause.wrongType found.description expected).here literal.after
    | .error fault => fault
  | .list place _ => (Cause.wrongType "sequence" expected).here place
  | .object place _ => (Cause.wrongType "map" expected).here place

def scalar? : Node → Option Scalar
  | .scalar _ literal => literal.value.toOption
  | _ => none

def isNull (node : Node) : Bool :=
  match node.scalar? with
  | some .null => true
  | _ => false

def text (node : Node) : Except Fault String :=
  match node.scalar? with
  | some (.string value) => .ok value
  | _ => .error (node.mismatch "a string")

def boolean (node : Node) : Except Fault Bool :=
  match node.scalar? with
  | some (.boolean value) => .ok value
  | _ => .error (node.mismatch "a boolean")

def optional {α : Type} (read : Node → Except Fault α) (node : Node) : Except Fault (Option α) :=
  if node.isNull then .ok none else some <$> read node

end Node

def Literal.text (key : Literal) : Except Fault String :=
  match key.value with
  | .ok (.string value) => .ok value
  | .ok _ => .error (Cause.keyNotString.here key.after)
  | .error fault => .error fault

mutual

def Node.skip : Node → Except Fault Unit
  | .missing => .error (Cause.endInValue.here [])
  | .stray place => .error (Cause.expectedValue.next place)
  | .scalar _ literal =>
    match literal.skipFault? with
    | some fault => .error fault
    | none => .ok ()
  | .list _ items => items.skip
  | .object _ members => members.skip

def Items.skip : Items → Except Fault Unit
  | .close _ => .ok ()
  | .item value _ next => do value.skip; next.skip
  | .broken _ skipped => .error skipped

def Members.skip : Members → Except Fault Unit
  | .close _ => .ok ()
  | .member key _ value _ next =>
    match key.skipFault? with
    | some fault => .error fault
    | none => do value.skip; next.skip
  | .bare key _ fault => .error (key.skipFault?.getD fault)
  | .broken _ skipped => .error skipped

end

mutual

def Node.keep (depth : Nat) : Node → Except Fault Unit
  | .missing => .error (Cause.endInValue.here [])
  | .stray place => .error (Cause.expectedValue.next place)
  | .scalar _ literal => (fun _ => ()) <$> literal.value
  | .list place items => descend depth place fun depth => items.keep depth
  | .object place members => descend depth place fun depth => members.keep depth

def Items.keep (depth : Nat) : Items → Except Fault Unit
  | .close _ => .ok ()
  | .item value _ next => do value.keep depth; next.keep depth
  | .broken kept _ => .error kept

def Members.keep (depth : Nat) : Members → Except Fault Unit
  | .close _ => .ok ()
  | .member key _ value _ next => do
    let _ ← key.text
    value.keep depth
    next.keep depth
  | .bare key _ fault => do
    let _ ← key.text
    .error fault
  | .broken kept _ => .error kept

end

def Items.values {α : Type} (read : Node → Except Fault α) : Items → Except Fault (List α)
  | .close _ => .ok []
  | .item value _ next => do
    let value ← read value
    let rest ← next.values read
    .ok (value :: rest)
  | .broken kept _ => .error kept

def Node.values {α : Type} (depth : Nat) (read : Nat → Node → Except Fault α) (node : Node) :
    Except Fault (List α) :=
  match node with
  | .list place items => descend depth place fun depth => items.values (read depth)
  | node => .error (node.mismatch "a sequence")

/-- The fault of a list that breaks off where it should have ended. -/
def Fault.atEnd (fault : Fault) : Fault :=
  match fault.cause with
  | .expectedItemEnd => { fault with cause := .trailingText }
  | .endInValue => { fault with cause := .trailingText }
  | _ => fault

def Document.read {α : Type} (document : Document) (read : Node → Except Fault α) : Except Fault α := do
  let value ← read document.root
  match document.trailing? with
  | none => .ok value
  | some place => .error (Cause.trailingText.next place)

end GrammarCheck.Json
