import GrammarCheck.Grammar.Basic
import GrammarCheck.Grammar.RuleReading
import GrammarCheck.Path

/-! Grammar definitions read from JSON, and the check that every symbol in their rules is defined. -/
namespace GrammarCheck
open Json (Node Items Members Place Cause Fault)

namespace Grammar

inductive Field where
  | name
  | rules
  | extras
  | externals
  | inline
  | conflicts
  | word
  | supertypes
deriving DecidableEq

namespace Field

def all : List Field := [.name, .rules, .extras, .externals, .inline, .conflicts, .word, .supertypes]

def key : Field → String
  | .name => "name"
  | .rules => "rules"
  | .extras => "extras"
  | .externals => "externals"
  | .inline => "inline"
  | .conflicts => "conflicts"
  | .word => "word"
  | .supertypes => "supertypes"

def ofKey? (key : String) : Option Field := all.find? (·.key == key)

end Field

structure Draft where
  name : Option String
  rules : Option (Table Rule)
  extras : Option (Option (List Rule))
  externals : Option (Option (List Rule))
  inline : Option (Option (List String))
  conflicts : Option (Option (List (List String)))
  word : Option (Option String)
  supertypes : Option (Option (List String))

/-- Reads rules by name. Of several under one name the last counts. -/
def rulesOfMembers (depth : Nat) (rules : Table Rule) : Members → Except Fault (Table Rule)
  | .close _ => .ok rules
  | .member key _ value _ next => do
    let name ← key.text
    let rule ← Rule.ofNode depth value
    rulesOfMembers depth (rules.insert name rule) next
  | .bare key _ fault => do
    let _ ← key.text
    .error fault
  | .broken kept _ => .error kept

def rulesOfNode (depth : Nat) : Node → Except Fault (Table Rule)
  | .object place members => Json.descend depth place fun depth => rulesOfMembers depth Table.empty members
  | node => .error (node.mismatch "a map")

def names (depth : Nat) : Node → Except Fault (List String) := Node.values depth fun _ => Node.text

namespace Draft

def empty : Draft := ⟨none, none, none, none, none, none, none, none⟩

def has (draft : Draft) : Field → Bool
  | .name => draft.name.isSome
  | .rules => draft.rules.isSome
  | .extras => draft.extras.isSome
  | .externals => draft.externals.isSome
  | .inline => draft.inline.isSome
  | .conflicts => draft.conflicts.isSome
  | .word => draft.word.isSome
  | .supertypes => draft.supertypes.isSome

def put (draft : Draft) (depth : Nat) (node : Node) : Field → Except Fault Draft
  | .name => do return { draft with name := some (← node.text) }
  | .rules => do return { draft with rules := some (← rulesOfNode depth node) }
  | .extras => do return { draft with extras := some (← node.optional (Rule.listOfNode depth)) }
  | .externals => do return { draft with externals := some (← node.optional (Rule.listOfNode depth)) }
  | .inline => do return { draft with inline := some (← node.optional (names depth)) }
  | .conflicts => do return { draft with conflicts := some (← node.optional (Node.values depth names)) }
  | .word => do return { draft with word := some (← node.optional Node.text) }
  | .supertypes => do return { draft with supertypes := some (← node.optional (names depth)) }

def grammar (draft : Draft) : Except Field Grammar :=
  match draft.name, draft.rules with
  | none, _ => .error .name
  | some _, none => .error .rules
  | some name, some rules =>
    .ok {
      name := name
      rules := rules
      extras := draft.extras.join
      externals := draft.externals.join
      inline := draft.inline.join
      conflicts := draft.conflicts.join
      word := draft.word.join
      supertypes := draft.supertypes.join }

end Draft

def ofMembers (depth : Nat) (draft : Draft) : Members → Except Fault Grammar
  | .close after =>
    draft.grammar.mapError fun field => (Cause.missingField field.key).here after
  | .broken kept _ => .error kept
  | .bare key settled fault => do
    match Field.ofKey? (← key.text) with
    | some field =>
      .error (if draft.has field then (Cause.duplicateField field.key).here settled else fault)
    | none => .error fault
  | .member key colon value _ next => do
    match Field.ofKey? (← key.text) with
    | some field =>
      if draft.has field then .error ((Cause.duplicateField field.key).here colon)
      else do
        let draft ← draft.put depth value field
        ofMembers depth draft next
    | none => do
      value.skip
      ofMembers depth draft next

def ofItems (depth : Nat) (draft : Draft) (fields : List Field) : Items → Except Fault Grammar
  | .item value _ next =>
    match fields with
    | field :: fields => do
      let draft ← draft.put depth value field
      ofItems depth draft fields next
    | [] => .error (Cause.trailingText.next value.place)
  | .close after =>
    draft.grammar.mapError fun field =>
      (Cause.wrongLength (Field.all.idxOf field) "struct Grammar with 8 elements").here after
  | .broken kept _ => .error (if fields.isEmpty then kept.atEnd else kept)

def ofNode (depth : Nat) : Node → Except Fault Grammar
  | .object place members =>
    Json.descend depth place fun depth => ofMembers depth Draft.empty members
  | .list place items =>
    Json.descend depth place fun depth => ofItems depth Draft.empty Field.all items
  | node => .error (node.mismatch "struct Grammar")

def defines (grammar : Grammar) (name : String) : Bool :=
  (grammar.rules.get? name).isSome || grammar.externalNames.contains name

/-- The first undefined symbol of the first rule that has one, in the order of the rule names, with
the name of that rule. -/
def undefinedSymbol? (grammar : Grammar) : Option (String × String) :=
  grammar.rules.entries.findSome? fun (rule, body) =>
    (body.symbols.find? (!grammar.defines ·)).map fun symbol => (symbol, rule)

end Grammar

inductive GrammarError where
  | unreadable (path : Path)
  | malformed (text : String) (fault : Fault)
  | noRules (grammar : String)
  | undefinedSymbol (symbol rule : String)

def GrammarError.message : GrammarError → String
  | .unreadable path => s!"could not read grammar definition {path.text}"
  | .malformed text fault => s!"JSON parse error: {fault.message text}"
  | .noRules grammar => s!"validation error: grammar '{grammar}' has no rules"
  | .undefinedSymbol symbol rule =>
    s!"validation error: undefined symbol '{symbol}' referenced in rule '{rule}'"

namespace Grammar

def check (grammar : Grammar) : Except GrammarError Grammar :=
  if grammar.rules.isEmpty then .error (.noRules grammar.name)
  else
    match grammar.undefinedSymbol? with
    | some (symbol, rule) => .error (.undefinedSymbol symbol rule)
    | none => .ok grammar

/-- Reads the text of a grammar definition, whatever its rules refer to. -/
def decode (text : String) : Except Fault Grammar :=
  (Json.Document.ofText text).read (ofNode Json.depthLimit)

def ofText (text : String) : Except GrammarError Grammar := do
  let grammar ← (decode text).mapError (.malformed text)
  grammar.check

def load (readText : Path → Option String) (path : Path) : Except GrammarError Grammar :=
  match readText path with
  | some text => ofText text
  | none => .error (.unreadable path)

end Grammar
end GrammarCheck
