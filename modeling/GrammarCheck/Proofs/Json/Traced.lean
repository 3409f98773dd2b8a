import GrammarCheck.Json.Reading
import GrammarCheck.Proofs.Text.Lines

/-! Faults whose messages can be traced. What a message quotes of a document never breaks its line, and what it
shows as it is, the name of an unknown variant, breaks it exactly where the name does. Main statement: the
tree of any text records traced faults only, and the readers that all others are made of add none but such. -/
namespace GrammarCheck.Json
open Text (lineFeeds)

/-- What a message shows of the document as it is. -/
def Cause.shown : Cause → List String
  | .unknownVariant name _ => [name]
  | _ => []

/-- The line feeds of the message are those of what it shows. -/
def Fault.Traced (fault : Fault) : Prop := lineFeeds fault.cause.message = lineFeeds (String.join fault.cause.shown)

/-- What fails here fails with a traced fault. -/
def Traces {α : Type} (result : Except Fault α) : Prop := ∀ fault, result = .error fault → fault.Traced

/-- A cause whose message is the same for every document. -/
def Cause.isFixed : Cause → Bool
  | .wrongType _ _ | .unknownVariant _ _ | .noVariant _ | .missingField _ | .duplicateField _ | .wrongLength _ _ => false
  | _ => true

namespace Fault

theorem lineFeeds_message (text : String) (fault : Fault) :
    lineFeeds (fault.message text) = lineFeeds fault.cause.message := by
  obtain ⟨line, column, spelled⟩ : ∃ line column : Nat,
      fault.message text = fault.cause.message ++ " at line " ++ line.repr ++ " column " ++ column.repr := ⟨_, _, rfl⟩
  simp only [spelled, Text.lineFeeds_append, Text.lineFeeds_repr]
  rfl

theorem Traced.fixed {fault : Fault} (isFixed : fault.cause.isFixed = true) : fault.Traced := by
  obtain ⟨cause, place, ahead⟩ := fault
  show lineFeeds cause.message = lineFeeds (String.join cause.shown)
  cases cause <;> first | contradiction | decide +kernel

theorem Traced.wrongType {found expected : String} (place : Place) (flat : lineFeeds found = 0)
    (plain : lineFeeds expected = 0) : ((Cause.wrongType found expected).here place).Traced := by
  show lineFeeds ("invalid type: " ++ found ++ ", expected " ++ expected) = 0
  simp only [Text.lineFeeds_append, flat, plain]
  rfl

theorem Traced.noVariant {type : String} (place : Place) (flat : lineFeeds type = 0) :
    ((Cause.noVariant type).here place).Traced := by
  show lineFeeds ("data did not match any variant of untagged enum " ++ type) = 0
  simp only [Text.lineFeeds_append, flat]
  rfl

theorem Traced.missingField {name : String} (place : Place) (flat : lineFeeds name = 0) :
    ((Cause.missingField name).here place).Traced := by
  show lineFeeds ("missing field `" ++ name ++ "`") = 0
  simp only [Text.lineFeeds_append, flat]
  rfl

theorem Traced.duplicateField {name : String} (place : Place) (flat : lineFeeds name = 0) :
    ((Cause.duplicateField name).here place).Traced := by
  show lineFeeds ("duplicate field `" ++ name ++ "`") = 0
  simp only [Text.lineFeeds_append, flat]
  rfl

theorem Traced.wrongLength {expected : String} (length : Nat) (place : Place) (flat : lineFeeds expected = 0) :
    ((Cause.wrongLength length expected).here place).Traced := by
  show lineFeeds ("invalid length " ++ length.repr ++ ", expected " ++ expected) = 0
  simp only [Text.lineFeeds_append, Text.lineFeeds_repr, flat]
  rfl

end Fault

theorem Number.lineFeeds_description (number : Number) : lineFeeds number.description = 0 := by
  cases number with
  | integer value =>
    show lineFeeds ("integer `" ++ value.repr ++ "`") = 0
    simp only [Text.lineFeeds_append, Text.lineFeeds_intRepr]
    rfl
  | decimal value =>
    show lineFeeds ("floating point `" ++ Decimal.Style.marked.write value ++ "`") = 0
    simp only [Text.lineFeeds_append, Text.lineFeeds_write]
    rfl

theorem Scalar.lineFeeds_description (scalar : Scalar) : lineFeeds scalar.description = 0 := by
  cases scalar with
  | null => rfl
  | boolean value => cases value <;> rfl
  | number value => exact value.lineFeeds_description
  | string value =>
    rw [description, Text.lineFeeds_append, Text.lineFeeds_quoted]
    rfl

section
variable {α β : Type}

namespace Traces

theorem ok (value : α) : Traces (.ok value) := by
  intro fault failed
  contradiction

theorem error {fault : Fault} (traced : fault.Traced) : Traces (.error fault : Except Fault α) := by
  intro other failed
  cases failed
  exact traced

theorem fixed {fault : Fault} (isFixed : fault.cause.isFixed = true) : Traces (.error fault : Except Fault α) :=
  error (.fixed isFixed)

theorem bind {result : Except Fault α} {next : α → Except Fault β} (traces : Traces result)
    (follow : ∀ value, Traces (next value)) : Traces (result >>= next) := by
  cases result with
  | error fault => exact error (traces fault rfl)
  | ok value => exact follow value

theorem map {result : Except Fault α} (f : α → β) (traces : Traces result) : Traces (f <$> result) := by
  cases result with
  | error fault => exact error (traces fault rfl)
  | ok value => exact ok (f value)

end Traces

theorem traces_descend (depth : Nat) (place : Place) {read : Nat → Except Fault α}
    (traces : ∀ depth, Traces (read depth)) : Traces (descend depth place read) := by
  cases depth with
  | zero => exact .fixed rfl
  | succ depth => exact traces depth

end

namespace Quotation

theorem traced_of_keepFault? {ending : Ending} {fault : Fault} (failed : ending.keepFault? = some fault) :
    fault.Traced := by
  cases ending <;> cases failed <;> exact .fixed rfl

theorem traced_of_skipFault? {ending : Ending} {fault : Fault} (failed : ending.skipFault? = some fault) :
    fault.Traced := by
  cases ending <;> cases failed <;> exact .fixed rfl

theorem traced_halfFault (ending : Ending) : ending.halfFault.Traced := by
  cases ending <;> exact .fixed rfl

theorem traces_keep (ending : Ending) (pieces : List Piece) : Traces (keep ending pieces) := by
  fun_induction keep ending pieces with
  | case1 fault failed => exact .error (traced_of_keepFault? failed)
  | case2 => exact .ok _
  | case3 _ _ _ ih | case4 _ _ _ ih => exact ih.map _
  | case6 => rename_i ih; exact ih.map _
  | case11 => rename_i ih; exact ih.map _
  | case10 => exact .error (traced_halfFault ending)
  | case5 | case7 | case8 | case9 => exact .fixed rfl

end Quotation

namespace Numeral

/-- The faults of a number that breaks off. -/
def Scan.Traced : Scan → Prop
  | .found _ _ => True
  | .broken kept skipped => kept.Traced ∧ skipped.Traced

section
variable (negative : Bool) (whole : List Char) (place : Place)

theorem Scan.Traced.fixed {kept skipped : Fault} (isFixed : kept.cause.isFixed = true)
    (also : skipped.cause.isFixed = true) : (Scan.broken kept skipped).Traced :=
  ⟨.fixed isFixed, .fixed also⟩

theorem traced_scanExponent (fraction : Option (List Char)) :
    (scanExponent negative whole fraction place).Traced := by
  fun_cases scanExponent negative whole fraction place with
  | case2 | case4 => exact .fixed rfl rfl
  | case1 | case3 | case5 => trivial

theorem traced_scanFraction : (scanFraction negative whole place).Traced := by
  fun_cases scanFraction negative whole place with
  | case1 rest =>
    -- which of the two causes it is depends on what is left, but both are fixed
    refine .fixed ?_ rfl
    cases rest <;> rfl
  | case2 => exact traced_scanExponent ..
  | case3 => exact traced_scanExponent ..

theorem traced_scanMagnitude : (scanMagnitude negative place).Traced := by
  fun_cases scanMagnitude negative place with
  | case1 | case3 | case5 => exact .fixed rfl rfl
  | case2 | case4 => exact traced_scanFraction ..

theorem traced_scan : (scan place).Traced := by
  unfold scan
  split <;> exact traced_scanMagnitude ..

end

theorem Parts.traces_value (parts : Parts) (after : Place) : Traces (parts.value after) := by
  unfold value
  split
  · split
    · exact .ok _
    · split <;> exact .ok _
  · unfold decimal
    simp only
    split
    · split
      · exact .ok _
      · exact .fixed rfl
    · split
      · split
        · exact .ok _
        · exact .fixed rfl
      · split
        · exact .ok _
        · exact .fixed rfl

end Numeral

namespace Literal

structure Traced (literal : Literal) : Prop where
  kept : Traces literal.value
  skipped : ∀ fault, literal.skipFault? = some fault → fault.Traced

theorem traces_matchWord (word : List Char) (place : Place) : Traces (matchWord word place) := by
  fun_induction matchWord word place with
  | case1 => exact .ok _
  | case2 => exact .fixed rfl
  | case3 _ _ _ ih => exact ih
  | case4 => exact .fixed rfl

theorem traced_quotation (rest : Place) : (quotation rest).Traced where
  kept := (Quotation.traces_keep _ _).map _ |>.map _
  skipped := fun _ => Quotation.traced_of_skipFault?

theorem traced_numeral (place : Place) : (numeral place).Traced := by
  unfold numeral
  split
  · exact ⟨(Numeral.Parts.traces_value _ _).map _, by simp⟩
  · next broken =>
    obtain ⟨kept, skipped⟩ := broken ▸ Numeral.traced_scan place
    refine ⟨.error kept, fun fault failed => ?_⟩
    cases failed
    exact skipped

theorem traced_word (value : Scalar) (letters : String) (rest : Place) : (word value letters rest).Traced := by
  unfold word
  split
  · exact ⟨.ok _, by simp⟩
  · next fault failed =>
    have traced := traces_matchWord _ _ fault failed
    refine ⟨.error traced, fun fault failed => ?_⟩
    cases failed
    exact traced

theorem traced_of_scan? {c : Char} {rest : Place} {literal : Literal} (found : scan? c rest = some literal) :
    literal.Traced := by
  unfold scan? at found
  split at found
  · cases found; exact traced_quotation rest
  · cases found; exact traced_word _ _ rest
  · cases found; exact traced_word _ _ rest
  · cases found; exact traced_word _ _ rest
  · split at found
    · cases found; exact traced_numeral _
    · contradiction

end Literal

def Token.Traced (token : Token) : Prop := ∀ literal, token.kind = .literal literal → literal.Traced

theorem punctuation?_ne_literal (c : Char) (literal : Literal) :
    Token.Kind.punctuation? c ≠ some (.literal literal) := by
  unfold Token.Kind.punctuation?
  split <;> simp

theorem traced_tokens (text : List Char) : ∀ token ∈ tokens text, token.Traced := by
  fun_induction tokens text with
  | case1 => simp
  | case2 _ _ _ ih => exact ih
  | case3 c rest _ kind mark ih =>
    refine List.forall_mem_cons.mpr ⟨?_, ih⟩
    rintro literal rfl
    exact absurd mark (punctuation?_ne_literal c literal)
  | case4 c rest _ _ literal found ih =>
    refine List.forall_mem_cons.mpr ⟨?_, ?_⟩
    · intro same is
      cases is
      exact Literal.traced_of_scan? found
    · split
      · simp
      · exact ih
  | case5 =>
    refine List.forall_mem_cons.mpr ⟨?_, by simp⟩
    intro literal is
    contradiction

mutual

/-- Every fault that a reader of the tree may come upon is traced. -/
def Node.Traced : Node → Prop
  | .missing => True
  | .stray _ => True
  | .scalar _ literal => literal.Traced
  | .list _ items => items.Traced
  | .object _ members => members.Traced

def Items.Traced : Items → Prop
  | .close _ => True
  | .item value _ next => value.Traced ∧ next.Traced
  | .broken kept skipped => kept.Traced ∧ skipped.Traced

def Members.Traced : Members → Prop
  | .close _ => True
  | .member key _ value _ next => key.Traced ∧ value.Traced ∧ next.Traced
  | .bare key _ fault => key.Traced ∧ fault.Traced
  | .broken kept skipped => kept.Traced ∧ skipped.Traced

end

/-- What a turn finds, leaves or fails with is traced. -/
def Turn.Traced {α : Type} (found : α → Prop) : Turn α → Prop
  | .close _ rest => ∀ token ∈ rest, token.Traced
  | .entry head rest => found head ∧ ∀ token ∈ rest, token.Traced
  | .broken kept skipped => kept.Traced ∧ skipped.Traced

def Left.Traced {tokens : List Token} (left : Left tokens) : Prop :=
  ∀ rest, left = some rest → ∀ token ∈ rest.1, token.Traced

theorem Turn.Traced.fixed {α : Type} {found : α → Prop} {kept skipped : Fault} (isFixed : kept.cause.isFixed = true)
    (also : skipped.cause.isFixed = true) : (Turn.broken kept skipped).Traced found :=
  ⟨.fixed isFixed, .fixed also⟩

theorem Items.traced_turn (first : Bool) {tokens : List Token} (traced : ∀ token ∈ tokens, token.Traced) :
    (Items.turn first tokens).Traced fun _ => True := by
  fun_cases Items.turn first tokens with
  | case1 | case4 | case5 | case7 => exact .fixed rfl rfl
  | case2 => exact (List.forall_mem_cons.mp traced).2
  | case3 => exact ⟨trivial, traced⟩
  | case6 => exact ⟨trivial, (List.forall_mem_cons.mp traced).2⟩

theorem Members.traced_key {tokens : List Token} (traced : ∀ token ∈ tokens, token.Traced) :
    (Members.key tokens).Traced Literal.Traced := by
  fun_cases Members.key tokens with
  | case1 | case2 | case4 | case5 => exact .fixed rfl rfl
  | case3 =>
    obtain ⟨own, others⟩ := List.forall_mem_cons.mp traced
    exact ⟨own _ rfl, others⟩

theorem Members.traced_turn (first : Bool) {tokens : List Token} (traced : ∀ token ∈ tokens, token.Traced) :
    (Members.turn first tokens).Traced Literal.Traced := by
  fun_cases Members.turn first tokens with
  | case1 | case5 => exact .fixed rfl rfl
  | case2 => exact (List.forall_mem_cons.mp traced).2
  | case3 => exact Members.traced_key traced
  | case4 => exact Members.traced_key (List.forall_mem_cons.mp traced).2

theorem Left.Traced.widen {tokens more : List Token} {left : Left tokens} (traced : left.Traced)
    (le : tokens.length ≤ more.length) : (left.widen le).Traced := by
  cases left with
  | none =>
    intro rest same
    contradiction
  | some inner =>
    intro rest same
    cases same
    exact traced inner rfl

theorem Left.traced_none {tokens : List Token} : Left.Traced (none : Left tokens) := by
  intro rest same
  contradiction

theorem Left.traced_some {tokens rest : List Token} {lt : rest.length < tokens.length}
    (traced : ∀ token ∈ rest, token.Traced) : Left.Traced (some ⟨rest, lt⟩ : Left tokens) := by
  intro other same
  cases same
  exact traced

-- The induction is that of the readers, on how many tokens are left. What a value leaves has to be traced too,
-- as the next entry is read from it.
mutual

theorem Node.traced_read : (tokens : List Token) → (∀ token ∈ tokens, token.Traced) →
    (Node.read tokens).1.Traced ∧ (Node.read tokens).2.Traced
  | [], _ => by
    rw [Node.read]
    exact ⟨trivial, Left.traced_none⟩
  | ⟨place, kind⟩ :: rest, traced => by
    obtain ⟨own, others⟩ := List.forall_mem_cons.mp traced
    cases kind with
    | literal literal =>
      rw [Node.read]
      refine ⟨own literal rfl, ?_⟩
      split
      · exact Left.traced_none
      · exact Left.traced_some others
    | openList =>
      obtain ⟨items, left⟩ := Items.traced_read true rest others
      rw [Node.read]
      exact ⟨items, left.widen (by simp)⟩
    | openObject =>
      obtain ⟨members, left⟩ := Members.traced_read true rest others
      rw [Node.read]
      exact ⟨members, left.widen (by simp)⟩
    | _ =>
      rw [Node.read]
      · exact ⟨trivial, Left.traced_none⟩
      all_goals simp
termination_by tokens => 2 * tokens.length

theorem Items.traced_read (first : Bool) (tokens : List Token) (traced : ∀ token ∈ tokens, token.Traced) :
    (Items.read first tokens).1.Traced ∧ (Items.read first tokens).2.Traced := by
  have turned := Items.traced_turn first traced
  rw [Items.read]
  split
  · next turn =>
    rw [turn] at turned
    exact ⟨trivial, Left.traced_some turned⟩
  · next turn =>
    rw [turn] at turned
    exact ⟨turned, Left.traced_none⟩
  · next start turn =>
    have le := Items.length_of_entry turn
    rw [turn] at turned
    obtain ⟨value, left⟩ := Node.traced_read start turned.2
    split
    · next read =>
      -- nothing is left after the value, so the list breaks off with a fault of its own
      rw [read] at value
      exact ⟨⟨value, .fixed rfl, .fixed rfl⟩, Left.traced_none⟩
    · next rest lt read =>
      rw [read] at value left
      obtain ⟨next, after⟩ := Items.traced_read false rest (left _ rfl)
      exact ⟨⟨value, next⟩, after.widen (by omega)⟩
termination_by 2 * tokens.length + 1

theorem Members.traced_read (first : Bool) (tokens : List Token) (traced : ∀ token ∈ tokens, token.Traced) :
    (Members.read first tokens).1.Traced ∧ (Members.read first tokens).2.Traced := by
  have turned := Members.traced_turn first traced
  rw [Members.read]
  split
  · next turn =>
    rw [turn] at turned
    exact ⟨trivial, Left.traced_some turned⟩
  · next turn =>
    rw [turn] at turned
    exact ⟨turned, Left.traced_none⟩
  · next turn =>
    rw [turn] at turned
    exact ⟨⟨turned.1, .fixed rfl⟩, Left.traced_none⟩
  · next start turn =>
    have lt : start.length + 1 < tokens.length := Members.length_of_entry turn
    rw [turn] at turned
    obtain ⟨value, left⟩ := Node.traced_read start (List.forall_mem_cons.mp turned.2).2
    split
    · next read =>
      rw [read] at value
      exact ⟨⟨turned.1, value, .fixed rfl, .fixed rfl⟩, Left.traced_none⟩
    · next rest lt read =>
      rw [read] at value left
      obtain ⟨next, after⟩ := Members.traced_read false rest (left _ rfl)
      exact ⟨⟨turned.1, value, next⟩, after.widen (by omega)⟩
  · next turn =>
    rw [turn] at turned
    exact ⟨⟨turned.1, .fixed rfl⟩, Left.traced_none⟩
termination_by 2 * tokens.length + 1

end

theorem Document.traced_root (text : String) : (ofText text).root.Traced := by
  have traced := (Node.traced_read _ (traced_tokens text.toList)).1
  unfold ofText
  split
  · next read =>
    rw [read] at traced
    exact traced
  · next read =>
    rw [read] at traced
    exact traced

namespace Node

theorem traced_mismatch {node : Node} (traced : node.Traced) {expected : String} (flat : lineFeeds expected = 0) :
    (node.mismatch expected).Traced := by
  cases node with
  | missing => exact .fixed rfl
  | stray => exact .fixed rfl
  | scalar place literal =>
    rw [mismatch]
    split
    · next found _ => exact .wrongType _ found.lineFeeds_description flat
    · next fault failed => exact traced.kept fault failed
  | list => exact .wrongType _ rfl flat
  | object => exact .wrongType _ rfl flat

theorem traces_text {node : Node} (traced : node.Traced) : Traces node.text := by
  unfold text
  split
  · exact .ok _
  · exact .error (traced_mismatch traced rfl)

theorem traces_boolean {node : Node} (traced : node.Traced) : Traces node.boolean := by
  unfold boolean
  split
  · exact .ok _
  · exact .error (traced_mismatch traced rfl)

theorem traces_optional {α : Type} {node : Node} {read : Node → Except Fault α} (own : Traces (read node)) :
    Traces (node.optional read) := by
  unfold optional
  split
  · exact .ok _
  · exact own.map _

end Node

theorem Literal.Traced.traces_text {key : Literal} (traced : key.Traced) : Traces key.text := by
  unfold Literal.text
  split
  · exact .ok _
  · exact .fixed rfl
  · next fault failed => exact .error (traced.kept fault failed)

mutual

theorem Node.traces_skip : (node : Node) → node.Traced → Traces node.skip
  | .missing, _ => .fixed rfl
  | .stray _, _ => .fixed rfl
  | .scalar _ literal, traced => by
    rw [Node.skip]
    split
    · next fault failed => exact .error (traced.skipped fault failed)
    · exact .ok _
  | .list _ items, traced => Items.traces_skip items traced
  | .object _ members, traced => Members.traces_skip members traced

theorem Items.traces_skip : (items : Items) → items.Traced → Traces items.skip
  | .close _, _ => .ok _
  | .broken _ _, ⟨_, skipped⟩ => .error skipped
  | .item node _ next, ⟨own, others⟩ =>
    (Node.traces_skip node own).bind fun _ => Items.traces_skip next others

theorem Members.traces_skip : (members : Members) → members.Traced → Traces members.skip
  | .close _, _ => .ok _
  | .broken _ _, ⟨_, skipped⟩ => .error skipped
  | .bare key _ fault, ⟨named, traced⟩ => by
    rw [Members.skip]
    cases skipped : key.skipFault? with
    | none => exact .error traced
    | some found => exact .error (named.skipped found skipped)
  | .member key _ node _ next, ⟨named, own, others⟩ => by
    rw [Members.skip]
    split
    · next fault failed => exact .error (named.skipped fault failed)
    · exact (Node.traces_skip node own).bind fun _ => Members.traces_skip next others

end

mutual

theorem Node.traces_keep : (node : Node) → node.Traced → ∀ depth, Traces (node.keep depth)
  | .missing, _, _ => .fixed rfl
  | .stray _, _, _ => .fixed rfl
  | .scalar _ _, traced, _ => traced.kept.map _
  | .list place items, traced, depth => traces_descend depth place (Items.traces_keep items traced)
  | .object place members, traced, depth => traces_descend depth place (Members.traces_keep members traced)

theorem Items.traces_keep : (items : Items) → items.Traced → ∀ depth, Traces (items.keep depth)
  | .close _, _, _ => .ok _
  | .broken _ _, ⟨kept, _⟩, _ => .error kept
  | .item node _ next, ⟨own, others⟩, depth =>
    (Node.traces_keep node own depth).bind fun _ => Items.traces_keep next others depth

theorem Members.traces_keep : (members : Members) → members.Traced → ∀ depth, Traces (members.keep depth)
  | .close _, _, _ => .ok _
  | .broken _ _, ⟨kept, _⟩, _ => .error kept
  | .bare _ _ _, ⟨named, traced⟩, _ => named.traces_text.bind fun _ => .error traced
  | .member _ _ node _ next, ⟨named, own, others⟩, depth =>
    named.traces_text.bind fun _ => (Node.traces_keep node own depth).bind fun _ =>
      Members.traces_keep next others depth

end

theorem Items.traces_values {α : Type} {read : Node → Except Fault α}
    (each : ∀ node : Node, node.Traced → Traces (read node)) :
    ∀ items : Items, items.Traced → Traces (items.values read)
  | .close _, _ => .ok _
  | .broken _ _, ⟨kept, _⟩ => .error kept
  | .item node _ next, ⟨own, others⟩ =>
    (each node own).bind fun _ => (traces_values each next others).bind fun _ => .ok _

theorem Node.traces_values {α : Type} {read : Nat → Node → Except Fault α}
    (each : ∀ depth, ∀ node : Node, node.Traced → Traces (read depth node)) (depth : Nat) {node : Node}
    (traced : node.Traced) : Traces (node.values depth read) := by
  cases node with
  | list place items => exact traces_descend depth place fun depth => items.traces_values (each depth) traced
  | _ => exact .error (traced_mismatch traced rfl)

theorem Fault.Traced.atEnd {fault : Fault} (traced : fault.Traced) : fault.atEnd.Traced := by
  unfold Fault.atEnd
  split
  · exact .fixed rfl
  · exact .fixed rfl
  · exact traced

theorem Document.traces_read {α : Type} {read : Node → Except Fault α}
    (each : ∀ node : Node, node.Traced → Traces (read node)) (text : String) : Traces ((ofText text).read read) := by
  refine (each _ (traced_root text)).bind fun _ => ?_
  split
  · exact .ok _
  · exact .fixed rfl

end GrammarCheck.Json
