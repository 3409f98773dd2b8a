import GrammarCheck.Grammar.Rule
import GrammarCheck.Json.Reading

/-! Rules read from JSON. A rule is an object of its fields in any order, fields that are not known
passed over, or a list of its fields in the order below. -/
namespace GrammarCheck
open Json (Node Items Members Place Cause Fault)

inductive Rule.Field where
  | type
  | value
  | name
  | content
  | members
  | named
  | flags
  | contextName
deriving DecidableEq

namespace Rule.Field

def all : List Field := [.type, .value, .name, .content, .members, .named, .flags, .contextName]

def key : Field → String
  | .type => "type"
  | .value => "value"
  | .name => "name"
  | .content => "content"
  | .members => "members"
  | .named => "named"
  | .flags => "flags"
  | .contextName => "context_name"

def ofKey? (key : String) : Option Field := all.find? (·.key == key)

end Rule.Field

/-- The value of a rule as it stands in JSON: nothing, a text, or an integer of 32 bits. -/
def RuleValue.ofNode (depth : Nat) (settled : Place) (node : Node) : Except Fault (Option RuleValue) :=
  if node.isNull then .ok none
  else do
    node.keep depth
    match node.scalar? with
    | some (.string value) => .ok (some (.text value))
    | some (.number (.integer value)) =>
      if -0x80000000 ≤ value ∧ value < 0x80000000 then .ok (some (.level (Int32.ofInt value)))
      else .error ((Cause.noVariant "RuleValue").here settled)
    | _ => .error ((Cause.noVariant "RuleValue").here settled)

namespace RuleKind

def ofText (name : String) (after : Place) : Except Fault RuleKind :=
  match ofName? name with
  | some kind => .ok kind
  | none => .error ((Cause.unknownVariant name (all.map RuleKind.name)).here after)

/-- What has to follow the one member of a kind that is written as an object. -/
def finish (kind : RuleKind) (settled : Place) : Members → Except Fault RuleKind
  | .close _ => .ok kind
  | .broken fault _ =>
    match fault.cause with
    | .endInObject => .error fault
    | _ => .error (Cause.expectedValue.here settled)
  | _ => .error (Cause.expectedValue.here settled)

/-- The kind of a rule: its name, or an object that maps the name to null. Anything but a string in the place
of that name is told of like a bad key of any object, and so is the end of the text there. -/
def ofNode (depth : Nat) : Node → Except Fault RuleKind
  | .missing => .error (Cause.endInValue.here [])
  | .scalar place literal =>
    if literal.isQuoted then do ofText (← literal.text) literal.after
    else .error (Cause.expectedValue.next place)
  | .object place members =>
    Json.descend depth place fun _ =>
      match members with
      | .close after => .error (Cause.expectedValue.here after)
      | .broken fault _ => .error fault
      | .bare key _ fault => do
        let _ ← ofText (← key.text) key.after
        .error fault
      | .member key _ value settled next => do
        let kind ← ofText (← key.text) key.after
        if value.isNull then kind.finish settled next else .error (value.mismatch "unit")
  | node => .error (Cause.expectedValue.next node.place)

end RuleKind

namespace Rule

structure Draft where
  type : Option RuleKind
  value : Option (Option RuleValue)
  name : Option (Option String)
  content : Option (Option Rule)
  members : Option (List Rule)
  named : Option (Option Bool)
  flags : Option (Option String)
  contextName : Option (Option String)

namespace Draft

def empty : Draft := ⟨none, none, none, none, none, none, none, none⟩

def has (draft : Draft) : Field → Bool
  | .type => draft.type.isSome
  | .value => draft.value.isSome
  | .name => draft.name.isSome
  | .content => draft.content.isSome
  | .members => draft.members.isSome
  | .named => draft.named.isSome
  | .flags => draft.flags.isSome
  | .contextName => draft.contextName.isSome

/-- The rule of the given kind with the other fields of the draft, absent ones empty. -/
def rule (draft : Draft) (kind : RuleKind) : Rule where
  kind := kind
  value := draft.value.join
  name := draft.name.join
  content := draft.content.join
  members := draft.members.getD []
  named := draft.named.join
  flags := draft.flags.join
  contextName := draft.contextName.join

/-- Reads one field. The rules inside it are read by `content` and `members`. -/
def put (draft : Draft) (depth : Nat) (settled : Place) (node : Node)
    (content : Unit → Except Fault Rule) (members : Unit → Except Fault (List Rule)) :
    Field → Except Fault Draft
  | .type => do return { draft with type := some (← RuleKind.ofNode depth node) }
  | .value => do return { draft with value := some (← RuleValue.ofNode depth settled node) }
  | .name => do return { draft with name := some (← node.optional Node.text) }
  | .content => do return { draft with content := some (← node.optional fun _ => content ()) }
  | .members => do return { draft with members := some (← members ()) }
  | .named => do return { draft with named := some (← node.optional Node.boolean) }
  | .flags => do return { draft with flags := some (← node.optional Node.text) }
  | .contextName => do return { draft with contextName := some (← node.optional Node.text) }

end Draft

mutual

def ofNode (depth : Nat) : Node → Except Fault Rule
  | .object place members =>
    Json.descend depth place fun depth => ofMembers depth Draft.empty members
  | .list place items =>
    Json.descend depth place fun depth => ofItems depth Draft.empty Field.all items
  | node => .error (node.mismatch "struct Rule")

def ofMembers (depth : Nat) (draft : Draft) : Members → Except Fault Rule
  | .close after =>
    match draft.type with
    | some kind => .ok (draft.rule kind)
    | none => .error ((Cause.missingField Field.type.key).here after)
  | .broken kept _ => .error kept
  | .bare key settled fault => do
    match Field.ofKey? (← key.text) with
    | some field =>
      .error (if draft.has field then (Cause.duplicateField field.key).here settled else fault)
    | none => .error fault
  | .member key colon value settled next => do
    match Field.ofKey? (← key.text) with
    | some field =>
      if draft.has field then .error ((Cause.duplicateField field.key).here colon)
      else do
        let draft ← draft.put depth settled value
          (fun _ => ofNode depth value) (fun _ => listOfNode depth value) field
        ofMembers depth draft next
    | none => do
      value.skip
      ofMembers depth draft next

def ofItems (depth : Nat) (draft : Draft) (fields : List Field) : Items → Except Fault Rule
  | .item value settled next =>
    match fields with
    | field :: fields => do
      let draft ← draft.put depth settled value
        (fun _ => ofNode depth value) (fun _ => listOfNode depth value) field
      ofItems depth draft fields next
    | [] => .error (Cause.trailingText.next value.place)
  | .close after =>
    match draft.type with
    | some kind => .ok (draft.rule kind)
    | none => .error ((Cause.wrongLength 0 "struct Rule with 8 elements").here after)
  | .broken kept _ => .error (if fields.isEmpty then kept.atEnd else kept)

def listOfNode (depth : Nat) : Node → Except Fault (List Rule)
  | .list place items => Json.descend depth place fun depth => listOfItems depth items
  | node => .error (node.mismatch "a sequence")

def listOfItems (depth : Nat) : Items → Except Fault (List Rule)
  | .close _ => .ok []
  | .item value _ next => do
    let rule ← ofNode depth value
    let rules ← listOfItems depth next
    .ok (rule :: rules)
  | .broken kept _ => .error kept

end

def ofText (text : String) : Except Fault Rule :=
  (Json.Document.ofText text).read (ofNode Json.depthLimit)

end Rule
end GrammarCheck
