import GrammarCheck.Json.Document
import GrammarCheck.Proofs.Json.Literal
import GrammarCheck.Proofs.Json.Tree

/-! Trees that are not broken off anywhere. Main statement: a text with such a tree, and nothing after it,
is JSON. Together with the tree of a well-formed text this makes the reader as strict as the grammar. -/
namespace GrammarCheck.Json

mutual

def Node.Whole : Node → Prop
  | .missing => False
  | .stray _ => False
  | .scalar _ literal => literal.Accepted
  | .list _ items => items.Whole
  | .object _ members => members.Whole

def Items.Whole : Items → Prop
  | .close _ => True
  | .item value _ next => value.Whole ∧ next.Whole
  | .broken _ _ => False

def Members.Whole : Members → Prop
  | .close _ => True
  | .member key _ value _ next => key.Accepted ∧ value.Whole ∧ next.Whole
  | .bare _ _ _ => False
  | .broken _ _ => False

end

/-- A text starts with these lexemes, and `after` is what is left of it. -/
def Leads (text : List Char) (lexemes : List Lexeme) (after : List Char) : Prop :=
  ∀ more, Lexed after more → Lexed text (lexemes ++ more)

namespace Leads

theorem refl (text : List Char) : Leads text [] text := fun _ lexed => lexed

theorem trans {text middle after : List Char} {first second : List Lexeme} (one : Leads text first middle)
    (other : Leads middle second after) : Leads text (first ++ second) after := by
  intro more lexed
  rw [List.append_assoc]
  exact one _ (other more lexed)

theorem blank {c : Char} {rest after : List Char} {lexemes : List Lexeme} (blank : isBlank c = true)
    (leads : Leads rest lexemes after) : Leads (c :: rest) lexemes after := by
  refine fun more lexed => .blank ?_ (leads more lexed)
  simpa [isBlank, or_assoc, or_comm, or_left_comm] using blank

theorem of_spelled {lexeme : Lexeme} {spelling : List Char} (spelled : lexeme.Spelled spelling) (after : List Char) :
    Leads (spelling ++ after) [lexeme] after := fun _ lexed => .cons spelled lexed

end Leads

theorem lexed_of_tokens_nil {text : List Char} (nothing : tokens text = []) : Lexed text [] := by
  fun_induction tokens text with
  | case1 => exact .nil
  | case2 c rest blank ih => exact Leads.blank blank (Leads.refl _) [] (ih nothing)
  | _ => contradiction

/-- A token that a reader can get past. -/
def Token.Kind.Accepted : Token.Kind → Prop
  | .literal scanned => scanned.Accepted
  | .stray => False
  | _ => True

inductive Token.Kind.Fits : Token.Kind → Lexeme → Prop
  | mark {kind : Token.Kind} {lexeme : Lexeme} (same : lexeme.punctuation? = some kind) : Fits kind lexeme
  | literal {literal : Literal} {lexeme : Lexeme} (skipped : literal.skipFault? = none)
      (scalar : lexeme.punctuation? = none) (quoted : literal.isQuoted = lexeme.isString) :
      Fits (.literal literal) lexeme

theorem exists_spelled_of_mark {c : Char} {kind : Token.Kind} (mark : Token.Kind.punctuation? c = some kind) :
    ∃ lexeme : Lexeme, lexeme.punctuation? = some kind ∧ lexeme.Spelled [c] := by
  unfold Token.Kind.punctuation? at mark
  split at mark
  · exact ⟨.openList, mark, .openList⟩
  · exact ⟨.closeList, mark, .closeList⟩
  · exact ⟨.openObject, mark, .openObject⟩
  · exact ⟨.closeObject, mark, .closeObject⟩
  · exact ⟨.comma, mark, .comma⟩
  · exact ⟨.colon, mark, .colon⟩
  · contradiction

theorem leads_of_tokens {text : List Char} {place : Place} {kind : Token.Kind} {rest : List Token}
    (accepted : kind.Accepted) (read : tokens text = ⟨place, kind⟩ :: rest) :
    ∃ lexeme after, rest = tokens after ∧ Leads text [lexeme] after ∧ kind.Fits lexeme := by
  fun_induction tokens text with
  | case1 => contradiction
  | case2 c more blank ih =>
    obtain ⟨lexeme, after, left, leads, fits⟩ := ih read
    exact ⟨lexeme, after, left, leads.blank blank, fits⟩
  | case3 c more _ mark found =>
    cases read
    obtain ⟨lexeme, same, spelled⟩ := exists_spelled_of_mark found
    exact ⟨lexeme, more, rfl, .of_spelled spelled more, .mark same⟩
  | case4 c more _ _ literal found =>
    obtain ⟨same, left⟩ := List.cons.inj read
    cases same
    obtain ⟨lexeme, scalar, quoted, skipped, spelling, spelled, same⟩ := Literal.stands_of_scan? found accepted
    rw [skipped] at left
    exact ⟨lexeme, literal.after, left.symm, same ▸ .of_spelled spelled _, .literal skipped scalar quoted⟩
  | case5 =>
    cases read
    exact accepted.elim

theorem Lexeme.eq_of_punctuation? {lexeme other : Lexeme} {kind : Token.Kind} (same : lexeme.punctuation? = some kind)
    (also : other.punctuation? = some kind) : other = lexeme := by
  cases lexeme <;> cases same <;> cases other <;> simp_all [punctuation?]

theorem Lexeme.punctuation?_ne_literal (lexeme : Lexeme) (literal : Literal) :
    lexeme.punctuation? ≠ some (.literal literal) := by
  cases lexeme <;> simp [punctuation?]

theorem leads_of_mark {text : List Char} {place : Place} {kind : Token.Kind} {rest : List Token} (lexeme : Lexeme)
    (same : lexeme.punctuation? = some kind) (read : tokens text = ⟨place, kind⟩ :: rest) :
    ∃ after, rest = tokens after ∧ Leads text [lexeme] after := by
  have accepted : kind.Accepted := by cases lexeme <;> cases same <;> exact trivial
  obtain ⟨other, after, left, leads, fits⟩ := leads_of_tokens accepted read
  cases fits with
  | mark also =>
    obtain rfl : other = lexeme := Lexeme.eq_of_punctuation? same also
    exact ⟨after, left, leads⟩
  | literal => exact absurd same (lexeme.punctuation?_ne_literal _)

theorem leads_of_literal {text : List Char} {place : Place} {literal : Literal} {rest : List Token}
    (accepted : literal.Accepted) (read : tokens text = ⟨place, .literal literal⟩ :: rest) :
    ∃ lexeme after, rest = tokens after ∧ Leads text [lexeme] after ∧ literal.skipFault? = none ∧
      lexeme.punctuation? = none ∧ literal.isQuoted = lexeme.isString := by
  have known : (Token.Kind.literal literal).Accepted := accepted
  obtain ⟨lexeme, after, left, leads, fits⟩ := leads_of_tokens known read
  cases fits with
  | mark same => exact absurd same (lexeme.punctuation?_ne_literal literal)
  | literal skipped scalar quoted => exact ⟨lexeme, after, left, leads, skipped, scalar, quoted⟩

theorem exists_value_of_scalar {lexeme : Lexeme} (scalar : lexeme.punctuation? = none) :
    ∃ value : Value, value.lexemes = [lexeme] := by
  cases lexeme with
  | null => exact ⟨.null, rfl⟩
  | boolean value => exact ⟨.boolean value, rfl⟩
  | number literal => exact ⟨.number literal, rfl⟩
  | string units => exact ⟨.string units, rfl⟩
  | _ => contradiction

theorem exists_units_of_isString {lexeme : Lexeme} (string : lexeme.isString = true) :
    ∃ units, lexeme = .string units := by
  cases lexeme with
  | string units => exact ⟨units, rfl⟩
  | _ => contradiction

section
variable {first : Bool} {text : List Char}

theorem Items.leads_of_close {after : Place} {rest : List Token}
    (turn : Items.turn first (tokens text) = .close after rest) :
    ∃ left, rest = tokens left ∧ Leads text [.closeList] left := by
  generalize read : tokens text = all at turn
  unfold Items.turn at turn
  split at turn
  · contradiction
  · cases turn
    exact leads_of_mark _ rfl read
  · split at turn <;> try contradiction
    split at turn <;> contradiction

theorem Items.leads_of_entry {start : List Token} (turn : Items.turn first (tokens text) = .entry () start) :
    ∃ left, start = tokens left ∧ Leads text (separator first) left := by
  generalize read : tokens text = all at turn
  unfold Items.turn at turn
  split at turn
  · contradiction
  · contradiction
  · split at turn
    · cases turn
      exact ⟨text, read.symm, .refl text⟩
    · obtain ⟨left, rfl, leads⟩ := leads_of_mark .comma rfl read
      split at turn <;> cases turn
      exact ⟨left, rfl, leads⟩
    · contradiction

theorem Members.leads_of_key {key : Literal} {rest : List Token} (accepted : key.Accepted)
    (turn : Members.key (tokens text) = .entry key rest) :
    ∃ units left, rest = tokens left ∧ Leads text [.string units] left := by
  generalize read : tokens text = all at turn
  unfold Members.key at turn
  split at turn <;> try contradiction
  split at turn <;> try contradiction
  next quoted =>
    cases turn
    obtain ⟨lexeme, left, rfl, leads, _, _, string⟩ := leads_of_literal accepted read
    obtain ⟨units, rfl⟩ := exists_units_of_isString (string.symm.trans quoted)
    exact ⟨units, left, rfl, leads⟩

theorem Members.leads_of_close {after : Place} {rest : List Token}
    (turn : Members.turn first (tokens text) = .close after rest) :
    ∃ left, rest = tokens left ∧ Leads text [.closeObject] left := by
  generalize read : tokens text = all at turn
  unfold Members.turn at turn
  split at turn
  · contradiction
  · cases turn
    exact leads_of_mark _ rfl read
  · split at turn
    · exact absurd turn Members.key_ne_close
    · exact absurd turn Members.key_ne_close
    · contradiction

theorem Members.leads_of_entry {key : Literal} {rest : List Token} (accepted : key.Accepted)
    (turn : Members.turn first (tokens text) = .entry key rest) :
    ∃ units left, rest = tokens left ∧ Leads text (separator first ++ [.string units]) left := by
  generalize read : tokens text = all at turn
  unfold Members.turn at turn
  split at turn
  · contradiction
  · contradiction
  · split at turn
    · rw [← read] at turn
      exact leads_of_key accepted turn
    · obtain ⟨middle, rfl, comma⟩ := leads_of_mark .comma rfl read
      obtain ⟨units, left, rfl, leads⟩ := leads_of_key accepted turn
      exact ⟨units, left, rfl, comma.trans leads⟩
    · contradiction

end

/-- What is left of the tokens is the tokens of what is left of the text. -/
def Left.Is {tokens : List Token} (left : Left tokens) (rest : List Token) : Prop := left.map Subtype.val = some rest

theorem Left.Is.of_widen {tokens more rest : List Token} {left : Left tokens} {le : tokens.length ≤ more.length}
    (is : left.Is rest) : (left.widen le).Is rest := by
  cases left with
  | none => contradiction
  | some => exact is

section
variable {first : Bool} {all : List Token} {left : Left all}

theorem Node.read_eq_scalar {place : Place} {literal : Literal}
    (read : Node.read all = (.scalar place literal, left)) :
    ∃ rest, all = ⟨place, .literal literal⟩ :: rest ∧ (literal.skipFault? = none → left.Is rest) := by
  rw [Node.read.eq_def] at read
  split at read <;> cases read
  refine ⟨_, rfl, fun skipped => ?_⟩
  simp [Left.Is, skipped]

theorem Node.read_eq_list {place : Place} {items : Items} (read : Node.read all = (.list place items, left)) :
    ∃ rest inner, all = ⟨place, .openList⟩ :: rest ∧ Items.read true rest = (items, inner) ∧
      ∀ more, inner.Is more → left.Is more := by
  rw [Node.read.eq_def] at read
  split at read <;> cases read
  exact ⟨_, _, rfl, rfl, fun _ => Left.Is.of_widen⟩

theorem Node.read_eq_object {place : Place} {members : Members}
    (read : Node.read all = (.object place members, left)) :
    ∃ rest inner, all = ⟨place, .openObject⟩ :: rest ∧ Members.read true rest = (members, inner) ∧
      ∀ more, inner.Is more → left.Is more := by
  rw [Node.read.eq_def] at read
  split at read <;> cases read
  exact ⟨_, _, rfl, rfl, fun _ => Left.Is.of_widen⟩

theorem Items.read_eq_close {after : Place} (read : Items.read first all = (.close after, left)) :
    ∃ rest, Items.turn first all = .close after rest ∧ left.Is rest := by
  rw [Items.read] at read
  split at read
  · next turn =>
    cases read
    exact ⟨_, turn, rfl⟩
  · cases read
  · split at read <;> cases read

/-- A whole list goes on after its item, so there was something left after that. -/
theorem Items.read_eq_item {node : Node} {settled : Place} {next : Items} (whole : next.Whole)
    (read : Items.read first all = (.item node settled next, left)) :
    ∃ start rest own inner, Items.turn first all = .entry () start ∧ Node.read start = (node, own) ∧ own.Is rest ∧
      Items.read false rest = (next, inner) ∧ ∀ more, inner.Is more → left.Is more := by
  rw [Items.read] at read
  split at read
  · cases read
  · cases read
  · next turn =>
    split at read
    · cases read
      exact whole.elim
    · next own =>
      cases read
      exact ⟨_, _, _, _, turn, own, rfl, rfl, fun _ => Left.Is.of_widen⟩

theorem Members.read_eq_close {after : Place} (read : Members.read first all = (.close after, left)) :
    ∃ rest, Members.turn first all = .close after rest ∧ left.Is rest := by
  rw [Members.read] at read
  split at read
  · next turn =>
    cases read
    exact ⟨_, turn, rfl⟩
  · cases read
  · cases read
  · split at read <;> cases read
  · cases read

theorem Members.read_eq_member {key : Literal} {colon settled : Place} {node : Node} {next : Members}
    (whole : next.Whole) (read : Members.read first all = (.member key colon node settled next, left)) :
    ∃ start rest own inner, Members.turn first all = .entry key (⟨colon, .colon⟩ :: start) ∧
      Node.read start = (node, own) ∧ own.Is rest ∧ Members.read false rest = (next, inner) ∧
      ∀ more, inner.Is more → left.Is more := by
  rw [Members.read] at read
  split at read
  · cases read
  · cases read
  · cases read
  · next turn =>
    split at read
    · cases read
      exact whole.elim
    · next own =>
      cases read
      exact ⟨_, _, _, _, turn, own, rfl, rfl, fun _ => Left.Is.of_widen⟩
  · cases read

end

mutual

theorem Node.leads : (node : Node) → node.Whole → ∀ {text : List Char} {left : Left (tokens text)},
    Node.read (tokens text) = (node, left) →
    ∃ value after, left.Is (tokens after) ∧ Leads text (Value.lexemes value) after
  | .missing, whole, _, _, _ => whole.elim
  | .stray _, whole, _, _, _ => whole.elim
  | .scalar place literal, accepted, text, left, read => by
    obtain ⟨rest, start, remains⟩ := Node.read_eq_scalar read
    obtain ⟨lexeme, after, rfl, leads, skipped, scalar, _⟩ := leads_of_literal accepted start
    obtain ⟨value, single⟩ := exists_value_of_scalar scalar
    exact ⟨value, after, remains skipped, single ▸ leads⟩
  | .list place items, whole, text, left, read => by
    obtain ⟨rest, inner, start, inside, remains⟩ := Node.read_eq_list read
    obtain ⟨within, rfl, opened⟩ := leads_of_mark .openList rfl start
    obtain ⟨values, after, is, leads⟩ := Items.leads items whole inside
    exact ⟨.list values, after, remains _ is, opened.trans leads⟩
  | .object place members, whole, text, left, read => by
    obtain ⟨rest, inner, start, inside, remains⟩ := Node.read_eq_object read
    obtain ⟨within, rfl, opened⟩ := leads_of_mark .openObject rfl start
    obtain ⟨values, after, is, leads⟩ := Members.leads members whole inside
    exact ⟨.object values, after, remains _ is, opened.trans leads⟩

theorem Items.leads : (items : Items) → items.Whole → ∀ {first : Bool} {text : List Char}
    {left : Left (tokens text)}, Items.read first (tokens text) = (items, left) →
    ∃ values after, left.Is (tokens after) ∧ Leads text (itemLexemes first values ++ [.closeList]) after
  | .broken _ _, whole, _, _, _, _ => whole.elim
  | .close _, _, first, text, left, read => by
    obtain ⟨rest, turn, is⟩ := Items.read_eq_close read
    obtain ⟨after, rfl, leads⟩ := Items.leads_of_close turn
    exact ⟨[], after, is, leads⟩
  | .item node settled next, ⟨own, others⟩, first, text, left, read => by
    obtain ⟨start, rest, here, inner, turn, value, is, following, remains⟩ := Items.read_eq_item others read
    obtain ⟨begins, rfl, separated⟩ := Items.leads_of_entry turn
    obtain ⟨value, middle, also, leads⟩ := Node.leads node own value
    obtain rfl : rest = tokens middle := Option.some.inj (is.symm.trans also)
    obtain ⟨values, after, ends, more⟩ := Items.leads next others following
    refine ⟨value :: values, after, remains _ ends, ?_⟩
    simpa [itemLexemes] using separated.trans (leads.trans more)

theorem Members.leads : (members : Members) → members.Whole → ∀ {first : Bool} {text : List Char}
    {left : Left (tokens text)}, Members.read first (tokens text) = (members, left) →
    ∃ values after, left.Is (tokens after) ∧ Leads text (memberLexemes first values ++ [.closeObject]) after
  | .bare _ _ _, whole, _, _, _, _ => whole.elim
  | .broken _ _, whole, _, _, _, _ => whole.elim
  | .close _, _, first, text, left, read => by
    obtain ⟨rest, turn, is⟩ := Members.read_eq_close read
    obtain ⟨after, rfl, leads⟩ := Members.leads_of_close turn
    exact ⟨[], after, is, leads⟩
  | .member key colon node settled next, ⟨named, own, others⟩, first, text, left, read => by
    obtain ⟨start, rest, here, inner, turn, value, is, following, remains⟩ := Members.read_eq_member others read
    obtain ⟨units, marked, same, keyed⟩ := Members.leads_of_entry named turn
    obtain ⟨begins, rfl, parted⟩ := leads_of_mark .colon rfl same.symm
    obtain ⟨value, middle, also, leads⟩ := Node.leads node own value
    obtain rfl : rest = tokens middle := Option.some.inj (is.symm.trans also)
    obtain ⟨values, after, ends, more⟩ := Members.leads next others following
    refine ⟨(units, value) :: values, after, remains _ ends, ?_⟩
    simpa [memberLexemes] using keyed.trans (parted.trans (leads.trans more))

end

theorem Document.exists_denoted {text : String} (whole : (ofText text).root.Whole)
    (ended : (ofText text).trailing? = none) : ∃ value, Denotes text value := by
  generalize read : Node.read (tokens text.toList) = result
  obtain ⟨root, left⟩ := result
  rw [ofText, read] at whole ended
  have here : root.Whole := by cases left <;> exact whole
  obtain ⟨value, after, is, leads⟩ := Node.leads root here read
  obtain ⟨⟨rest, lt⟩, rfl, same⟩ := Option.map_eq_some_iff.mp is
  have nothing : tokens after = [] := by
    rw [← same]
    simpa using ended
  have lexed := leads [] (lexed_of_tokens_nil nothing)
  rw [List.append_nil] at lexed
  exact ⟨value, lexed⟩

end GrammarCheck.Json
