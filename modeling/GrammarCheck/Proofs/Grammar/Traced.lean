import GrammarCheck.Grammar.Reading
import GrammarCheck.Proofs.Json.Traced

/-! Faults of grammar definitions. Main statement: the message about a definition that does not decode breaks its
line only where a kind of rule that is not known does, by its name. -/
namespace GrammarCheck
open Json (Node Items Members Place Cause Fault Traces traces_descend)
open Text (lineFeeds)

theorem RuleValue.traces_ofNode (depth : Nat) (settled : Place) {node : Node} (traced : node.Traced) :
    Traces (RuleValue.ofNode depth settled node) := by
  have variant : ((Cause.noVariant "RuleValue").here settled).Traced := .noVariant settled rfl
  unfold RuleValue.ofNode
  split
  · exact .ok _
  · refine (Node.traces_keep node traced depth).bind fun _ => ?_
    split
    · exact .ok _
    · split
      · exact .ok _
      · exact .error variant
    · exact .error variant

namespace RuleKind

/-- The name of an unknown kind is shown as it is. -/
theorem traces_ofText (name : String) (after : Place) : Traces (ofText name after) := by
  unfold ofText
  split
  · exact .ok _
  · refine .error ?_
    have known : lineFeeds (", ".intercalate ((all.map RuleKind.name).map fun variant => s!"`{variant}`")) = 0 := by
      decide +kernel
    have front : lineFeeds "unknown variant `" = 0 := rfl
    have back : lineFeeds "`, expected one of " = 0 := rfl
    show lineFeeds ("unknown variant `" ++ name ++ "`, expected one of " ++
      ", ".intercalate ((all.map RuleKind.name).map fun variant => s!"`{variant}`")) = lineFeeds (String.join [name])
    rw [Text.lineFeeds_append, Text.lineFeeds_append, Text.lineFeeds_append, known, front, back]
    simp

theorem traces_finish (kind : RuleKind) (settled : Place) {members : Members} (traced : members.Traced) :
    Traces (kind.finish settled members) := by
  unfold finish
  split
  · exact .ok _
  · split
    · exact .error traced.1
    · exact .fixed rfl
  · exact .fixed rfl

theorem traces_ofNode (depth : Nat) {node : Node} (traced : node.Traced) : Traces (ofNode depth node) := by
  cases node with
  | missing => exact .fixed rfl
  | stray => exact .fixed rfl
  | list => exact .fixed rfl
  | scalar place literal =>
    rw [ofNode]
    split
    · exact (Json.Literal.Traced.traces_text traced).bind fun _ => traces_ofText _ _
    · exact .fixed rfl
  | object place members =>
    refine traces_descend depth place fun _ => ?_
    cases members with
    | close => exact .fixed rfl
    | broken => exact .error traced.1
    | bare key _ fault =>
      obtain ⟨named, traced⟩ := traced
      exact named.traces_text.bind fun _ => (traces_ofText _ _).bind fun _ => .error traced
    | member key _ value settled next =>
      obtain ⟨named, own, others⟩ := traced
      refine named.traces_text.bind fun _ => (traces_ofText _ _).bind fun kind => ?_
      split
      · exact traces_finish kind settled others
      · exact .error (Node.traced_mismatch own rfl)

end RuleKind

namespace Rule

theorem Draft.traces_put {draft : Draft} {depth : Nat} {settled : Place} {node : Node}
    {content : Unit → Except Fault Rule} {members : Unit → Except Fault (List Rule)} (traced : node.Traced)
    (rule : Traces (content ())) (rules : Traces (members ())) (field : Field) :
    Traces (draft.put depth settled node content members field) := by
  have text := Node.traces_optional (Node.traces_text traced)
  cases field with
  | type => exact (RuleKind.traces_ofNode depth traced).bind fun _ => .ok _
  | value => exact (RuleValue.traces_ofNode depth settled traced).bind fun _ => .ok _
  | content => exact (Node.traces_optional rule).bind fun _ => .ok _
  | members => exact rules.bind fun _ => .ok _
  | named => exact (Node.traces_optional (Node.traces_boolean traced)).bind fun _ => .ok _
  | name | flags | contextName => exact text.bind fun _ => .ok _

theorem Field.lineFeeds_key (field : Field) : lineFeeds field.key = 0 := by cases field <;> rfl

mutual

theorem traces_ofNode : (node : Node) → node.Traced → ∀ depth, Traces (ofNode depth node)
  | .missing, traced, _ => .error (Node.traced_mismatch traced rfl)
  | .stray _, traced, _ => .error (Node.traced_mismatch traced rfl)
  | .scalar _ _, traced, _ => .error (Node.traced_mismatch traced rfl)
  | .object place members, traced, depth =>
    traces_descend depth place fun depth => traces_ofMembers members traced depth _
  | .list place items, traced, depth =>
    traces_descend depth place fun depth => traces_ofItems items traced depth _ _

theorem traces_ofMembers : (members : Members) → members.Traced → ∀ depth (draft : Draft),
    Traces (ofMembers depth draft members)
  | .close after, _, _, draft => by
    rw [ofMembers]
    split
    · exact .ok _
    · exact .error (.missingField after rfl)
  | .broken _ _, ⟨kept, _⟩, _, _ => .error kept
  | .bare key settled fault, ⟨named, traced⟩, _, draft => by
    refine named.traces_text.bind fun name => ?_
    split
    · next field _ =>
      split
      · exact .error (.duplicateField settled field.lineFeeds_key)
      · exact .error traced
    · exact .error traced
  | .member key colon node settled next, ⟨named, own, others⟩, depth, draft => by
    refine named.traces_text.bind fun name => ?_
    split
    · next field _ =>
      split
      · exact .error (.duplicateField colon field.lineFeeds_key)
      · exact (Draft.traces_put own (traces_ofNode node own depth) (traces_listOfNode node own depth) field).bind
          fun _ => traces_ofMembers next others depth _
    · exact (Node.traces_skip node own).bind fun _ => traces_ofMembers next others depth _

theorem traces_ofItems : (items : Items) → items.Traced → ∀ depth (draft : Draft) (fields : List Field),
    Traces (ofItems depth draft fields items)
  | .close after, _, _, draft, _ => by
    rw [ofItems]
    split
    · exact .ok _
    · exact .error (.wrongLength 0 after rfl)
  | .broken _ _, ⟨kept, _⟩, _, _, fields => by
    rw [ofItems]
    refine .error ?_
    split
    · exact kept.atEnd
    · exact kept
  | .item _ _ _, _, _, _, [] => .fixed rfl
  | .item node _ next, ⟨own, others⟩, depth, _, field :: fields =>
    (Draft.traces_put own (traces_ofNode node own depth) (traces_listOfNode node own depth) field).bind
      fun _ => traces_ofItems next others depth _ fields

theorem traces_listOfNode : (node : Node) → node.Traced → ∀ depth, Traces (listOfNode depth node)
  | .missing, traced, _ => .error (Node.traced_mismatch traced rfl)
  | .stray _, traced, _ => .error (Node.traced_mismatch traced rfl)
  | .scalar _ _, traced, _ => .error (Node.traced_mismatch traced rfl)
  | .object _ _, traced, _ => .error (Node.traced_mismatch traced rfl)
  | .list place items, traced, depth => traces_descend depth place (traces_listOfItems items traced)

theorem traces_listOfItems : (items : Items) → items.Traced → ∀ depth, Traces (listOfItems depth items)
  | .close _, _, _ => .ok _
  | .broken _ _, ⟨kept, _⟩, _ => .error kept
  | .item node _ next, ⟨own, others⟩, depth =>
    (traces_ofNode node own depth).bind fun _ => (traces_listOfItems next others depth).bind fun _ => .ok _

end

end Rule

namespace Grammar

theorem traces_rulesOfMembers : ∀ (members : Members), members.Traced → ∀ depth (rules : Table Rule),
    Traces (rulesOfMembers depth rules members)
  | .close _, _, _, _ => .ok _
  | .broken _ _, ⟨kept, _⟩, _, _ => .error kept
  | .bare _ _ _, ⟨named, traced⟩, _, _ => named.traces_text.bind fun _ => .error traced
  | .member _ _ node _ next, ⟨named, own, others⟩, depth, _ =>
    named.traces_text.bind fun _ => (Rule.traces_ofNode node own depth).bind fun _ =>
      traces_rulesOfMembers next others depth _

theorem traces_rulesOfNode (depth : Nat) {node : Node} (traced : node.Traced) : Traces (rulesOfNode depth node) := by
  cases node with
  | object place members =>
    exact traces_descend depth place fun depth => traces_rulesOfMembers members traced depth _
  | _ => exact .error (Node.traced_mismatch traced rfl)

theorem traces_names (depth : Nat) (node : Node) (traced : node.Traced) : Traces (names depth node) :=
  Node.traces_values (fun _ _ => Node.traces_text) depth traced

theorem Draft.traces_put {draft : Draft} {depth : Nat} {node : Node} (traced : node.Traced) (field : Field) :
    Traces (draft.put depth node field) := by
  have rules := Node.traces_optional (Rule.traces_listOfNode node traced depth)
  have texts := Node.traces_optional (traces_names depth node traced)
  cases field with
  | name => exact (Node.traces_text traced).bind fun _ => .ok _
  | rules => exact (traces_rulesOfNode depth traced).bind fun _ => .ok _
  | extras | externals => exact rules.bind fun _ => .ok _
  | inline | supertypes => exact texts.bind fun _ => .ok _
  | conflicts => exact (Node.traces_optional (Node.traces_values traces_names depth traced)).bind fun _ => .ok _
  | word => exact (Node.traces_optional (Node.traces_text traced)).bind fun _ => .ok _

theorem Field.lineFeeds_key (field : Field) : lineFeeds field.key = 0 := by cases field <;> rfl

theorem traces_mapError {draft : Draft} {fault : Field → Fault} (traced : ∀ field, (fault field).Traced) :
    Traces (draft.grammar.mapError fault) := by
  cases draft.grammar with
  | ok grammar => exact .ok grammar
  | error field => exact .error (traced field)

theorem traces_ofMembers : ∀ (members : Members), members.Traced → ∀ depth (draft : Draft),
    Traces (ofMembers depth draft members)
  | .close after, _, _, _ => traces_mapError fun field => .missingField after field.lineFeeds_key
  | .broken _ _, ⟨kept, _⟩, _, _ => .error kept
  | .bare key settled fault, ⟨named, traced⟩, _, draft => by
    refine named.traces_text.bind fun name => ?_
    split
    · next field _ =>
      split
      · exact .error (.duplicateField settled field.lineFeeds_key)
      · exact .error traced
    · exact .error traced
  | .member key colon node _ next, ⟨named, own, others⟩, depth, draft => by
    refine named.traces_text.bind fun name => ?_
    split
    · next field _ =>
      split
      · exact .error (.duplicateField colon field.lineFeeds_key)
      · exact (Draft.traces_put own field).bind fun _ => traces_ofMembers next others depth _
    · exact (Node.traces_skip node own).bind fun _ => traces_ofMembers next others depth _

theorem traces_ofItems : ∀ (items : Items), items.Traced → ∀ depth (draft : Draft) (fields : List Field),
    Traces (ofItems depth draft fields items)
  | .close after, _, _, _, _ => by
    rw [ofItems]
    exact traces_mapError fun _ => .wrongLength _ after rfl
  | .broken _ _, ⟨kept, _⟩, _, _, fields => by
    rw [ofItems]
    refine .error ?_
    split
    · exact kept.atEnd
    · exact kept
  | .item _ _ _, _, _, _, [] => by
    rw [ofItems]
    exact .fixed rfl
  | .item node _ next, ⟨own, others⟩, depth, _, field :: fields => by
    rw [ofItems]
    exact (Draft.traces_put own field).bind fun _ => traces_ofItems next others depth _ fields

theorem traces_ofNode (depth : Nat) (node : Node) (traced : node.Traced) : Traces (ofNode depth node) := by
  cases node with
  | object place members =>
    exact traces_descend depth place fun depth => traces_ofMembers members traced depth _
  | list place items =>
    exact traces_descend depth place fun depth => traces_ofItems items traced depth _ _
  | _ => exact .error (Node.traced_mismatch traced rfl)

theorem traces_decode (text : String) : Traces (decode text) :=
  Json.Document.traces_read (traces_ofNode Json.depthLimit) text

theorem check_ne_malformed (grammar : Grammar) (text : String) (fault : Fault) :
    grammar.check ≠ .error (.malformed text fault) := by
  unfold check
  split
  · simp
  · split <;> simp

theorem traced_of_load {readText : Path → Option String} {path : Path} {text : String} {fault : Fault}
    (failed : Grammar.load readText path = .error (.malformed text fault)) : fault.Traced := by
  unfold Grammar.load at failed
  split at failed
  · next read _ =>
    cases decoded : decode read with
    | error other =>
      rw [ofText, decoded] at failed
      cases failed
      exact traces_decode _ fault decoded
    | ok grammar =>
      rw [ofText, decoded] at failed
      exact absurd failed (grammar.check_ne_malformed text fault)
  · cases failed

end Grammar

/-- The texts that the message shows as they are. -/
def GrammarError.shown : GrammarError → List String
  | .unreadable path => [path.text]
  | .malformed _ fault => fault.cause.shown
  | .noRules grammar => [grammar]
  | .undefinedSymbol symbol rule => [symbol, rule]

theorem GrammarError.lineFeeds_message {error : GrammarError}
    (traced : ∀ text fault, error = .malformed text fault → fault.Traced) :
    lineFeeds error.message = lineFeeds (String.join error.shown) := by
  cases error with
  | unreadable path =>
    have front : lineFeeds "could not read grammar definition " = 0 := rfl
    show lineFeeds ("could not read grammar definition " ++ path.text) = lineFeeds (String.join [path.text])
    simp [front]
  | malformed text fault =>
    have front : lineFeeds "JSON parse error: " = 0 := rfl
    show lineFeeds ("JSON parse error: " ++ fault.message text) = lineFeeds (String.join fault.cause.shown)
    have same : lineFeeds fault.cause.message = lineFeeds (String.join fault.cause.shown) := traced text fault rfl
    simp [front, fault.lineFeeds_message, same]
  | noRules grammar =>
    have front : lineFeeds "validation error: grammar '" = 0 := rfl
    have back : lineFeeds "' has no rules" = 0 := rfl
    show lineFeeds ("validation error: grammar '" ++ grammar ++ "' has no rules") = lineFeeds (String.join [grammar])
    simp [front, back]
  | undefinedSymbol symbol rule =>
    have front : lineFeeds "validation error: undefined symbol '" = 0 := rfl
    have middle : lineFeeds "' referenced in rule '" = 0 := rfl
    have back : lineFeeds "'" = 0 := rfl
    show lineFeeds ("validation error: undefined symbol '" ++ symbol ++ "' referenced in rule '" ++ rule ++ "'") =
      lineFeeds (String.join [symbol, rule])
    simp [front, middle, back]

theorem Grammar.lineFeeds_of_load {readText : Path → Option String} {path : Path} {error : GrammarError}
    (failed : Grammar.load readText path = .error error) :
    lineFeeds error.message = lineFeeds (String.join error.shown) :=
  error.lineFeeds_message fun _ _ malformed => traced_of_load (malformed ▸ failed)

end GrammarCheck
