import GrammarCheck.Json.Document
import GrammarCheck.Proofs.Json.Tokens

/-! The trees of well-formed texts. Main statement: a text that denotes a value has a tree that shows that
value, with nothing broken in it and nothing after it. -/
namespace GrammarCheck.Json

mutual

inductive Node.Shows : Node → Value → Prop
  | scalar {place : Place} {literal : Literal} {value : Value} {lexeme : Lexeme}
      (single : value.lexemes = [lexeme]) (shown : literal.Shows lexeme) :
      Node.Shows (.scalar place literal) value
  | list {place : Place} {items : Items} {values : List Value} (shown : Items.Shows items values) :
      Node.Shows (.list place items) (.list values)
  | object {place : Place} {members : Members} {values : List (List Nat × Value)}
      (shown : Members.Shows members values) : Node.Shows (.object place members) (.object values)

inductive Items.Shows : Items → List Value → Prop
  | close {after : Place} : Items.Shows (.close after) []
  | item {node : Node} {settled : Place} {next : Items} {value : Value} {rest : List Value}
      (first : Node.Shows node value) (others : Items.Shows next rest) :
      Items.Shows (.item node settled next) (value :: rest)

inductive Members.Shows : Members → List (List Nat × Value) → Prop
  | close {after : Place} : Members.Shows (.close after) []
  | member {key : Literal} {colon settled : Place} {node : Node} {next : Members} {units : List Nat} {value : Value}
      {rest : List (List Nat × Value)} (named : key.Shows (.string units))
      (first : Node.Shows node value) (others : Members.Shows next rest) :
      Members.Shows (.member key colon node settled next) ((units, value) :: rest)

end

/-- What is left of the tokens shows what is left of the lexemes. -/
def LeftShows {tokens : List Token} (left : Left tokens) (rest : List Lexeme) : Prop :=
  ∃ more, left = some more ∧ List.Forall₂ Token.Shows more.1 rest

theorem LeftShows.widen {tokens more : List Token} {left : Left tokens} {rest : List Lexeme}
    (le : tokens.length ≤ more.length) (shows : LeftShows left rest) : LeftShows (left.widen le) rest := by
  obtain ⟨more, rfl, shown⟩ := shows
  exact ⟨_, rfl, shown⟩

/-- The tokens start with the value, and the rest of the lexemes is left. -/
def Node.Reads (tokens : List Token) (value : Value) (rest : List Lexeme) : Prop :=
  (Node.read tokens).1.Shows value ∧ LeftShows (Node.read tokens).2 rest

def Items.Reads (first : Bool) (tokens : List Token) (values : List Value) (rest : List Lexeme) : Prop :=
  (Items.read first tokens).1.Shows values ∧ LeftShows (Items.read first tokens).2 rest

def Members.Reads (first : Bool) (tokens : List Token) (values : List (List Nat × Value)) (rest : List Lexeme) :
    Prop :=
  (Members.read first tokens).1.Shows values ∧ LeftShows (Members.read first tokens).2 rest

theorem Items.reads_close {first : Bool} {tokens more : List Token} {after : Place} {rest : List Lexeme}
    (turn : Items.turn first tokens = .close after more) (shown : List.Forall₂ Token.Shows more rest) :
    Items.Reads first tokens [] rest := by
  rw [Items.Reads, Items.read]
  split
  · next same =>
    rw [turn] at same
    cases same
    exact ⟨.close, _, rfl, shown⟩
  · next same => rw [turn] at same; contradiction
  · next same => rw [turn] at same; contradiction

theorem Items.reads_entry {first : Bool} {tokens start : List Token} {value : Value} {values : List Value}
    {middle rest : List Lexeme} (turn : Items.turn first tokens = .entry () start)
    (own : Node.Reads start value middle)
    (others : ∀ more, List.Forall₂ Token.Shows more middle → Items.Reads false more values rest) :
    Items.Reads first tokens (value :: values) rest := by
  obtain ⟨shows, ⟨more, lt⟩, left, shown⟩ := own
  obtain ⟨next, after⟩ := others more shown
  have read : Node.read start = ((Node.read start).1, some ⟨more, lt⟩) := Prod.ext rfl left
  rw [Items.Reads, Items.read]
  split
  · next same => rw [turn] at same; contradiction
  · next same => rw [turn] at same; contradiction
  · next same =>
    rw [turn] at same
    cases same
    have le := Items.length_of_entry turn
    rw [read]
    exact ⟨.item shows next, after.widen (by omega)⟩

theorem Members.reads_close {first : Bool} {tokens more : List Token} {after : Place} {rest : List Lexeme}
    (turn : Members.turn first tokens = .close after more) (shown : List.Forall₂ Token.Shows more rest) :
    Members.Reads first tokens [] rest := by
  rw [Members.Reads, Members.read]
  split
  · next same =>
    rw [turn] at same
    cases same
    exact ⟨.close, _, rfl, shown⟩
  all_goals next same => rw [turn] at same; contradiction

theorem Members.reads_entry {first : Bool} {tokens start : List Token} {key : Literal} {colon : Place}
    {units : List Nat} {value : Value} {values : List (List Nat × Value)} {middle rest : List Lexeme}
    (turn : Members.turn first tokens = .entry key (⟨colon, .colon⟩ :: start)) (named : key.Shows (.string units))
    (own : Node.Reads start value middle)
    (others : ∀ more, List.Forall₂ Token.Shows more middle → Members.Reads false more values rest) :
    Members.Reads first tokens ((units, value) :: values) rest := by
  obtain ⟨shows, ⟨more, lt⟩, left, shown⟩ := own
  obtain ⟨next, after⟩ := others more shown
  have read : Node.read start = ((Node.read start).1, some ⟨more, lt⟩) := Prod.ext rfl left
  rw [Members.Reads, Members.read]
  split
  · next same => rw [turn] at same; contradiction
  · next same => rw [turn] at same; contradiction
  · next same => rw [turn] at same; cases same
  · next same =>
    rw [turn] at same
    cases same
    have le := Members.length_of_entry turn
    simp only [List.length_cons] at le
    rw [read]
    exact ⟨.member named shows next, after.widen (by omega)⟩
  · next other same =>
    rw [turn] at same
    cases same
    exact absurd rfl (other colon)

theorem Token.Shows.mark {token : Token} {lexeme : Lexeme} {kind : Token.Kind} (shows : token.Shows lexeme)
    (isMark : lexeme.punctuation? = some kind) : token.kind = kind := by
  cases shows with
  | punctuation same => exact Option.some.inj (same.symm.trans isMark)
  | literal scalar => rw [isMark] at scalar; contradiction

theorem shows_cons {tokens : List Token} {lexeme : Lexeme} {rest : List Lexeme}
    (shown : List.Forall₂ Token.Shows tokens (lexeme :: rest)) :
    ∃ place kind more, tokens = ⟨place, kind⟩ :: more ∧ Token.Shows ⟨place, kind⟩ lexeme ∧
      List.Forall₂ Token.Shows more rest := by
  obtain ⟨⟨place, kind⟩, more, own, others, rfl⟩ := List.forall₂_cons_right_iff.mp shown
  exact ⟨place, kind, more, rfl, own, others⟩

theorem shows_mark {tokens : List Token} {lexeme : Lexeme} {kind : Token.Kind} {rest : List Lexeme}
    (isMark : lexeme.punctuation? = some kind) (shown : List.Forall₂ Token.Shows tokens (lexeme :: rest)) :
    ∃ place more, tokens = ⟨place, kind⟩ :: more ∧ List.Forall₂ Token.Shows more rest := by
  obtain ⟨place, other, more, rfl, own, others⟩ := shows_cons shown
  obtain rfl : other = kind := own.mark isMark
  exact ⟨place, more, rfl, others⟩

theorem shows_literal {tokens : List Token} {lexeme : Lexeme} {rest : List Lexeme}
    (scalar : lexeme.punctuation? = none) (shown : List.Forall₂ Token.Shows tokens (lexeme :: rest)) :
    ∃ place literal more, tokens = ⟨place, .literal literal⟩ :: more ∧ literal.Shows lexeme ∧
      List.Forall₂ Token.Shows more rest := by
  obtain ⟨place, kind, more, rfl, own, others⟩ := shows_cons shown
  cases own with
  | punctuation same => rw [scalar] at same; contradiction
  | literal _ told => exact ⟨place, _, more, rfl, told, others⟩

theorem Value.punctuation_of_single {value : Value} {lexeme : Lexeme} (single : value.lexemes = [lexeme]) :
    lexeme.punctuation? = none := by
  cases value with
  | list items => simp [lexemes] at single
  | object members => simp [lexemes] at single
  | _ => cases single; rfl

theorem node_reads_scalar {value : Value} {lexeme : Lexeme} (single : value.lexemes = [lexeme])
    {tokens : List Token} {rest : List Lexeme} (shown : List.Forall₂ Token.Shows tokens (value.lexemes ++ rest)) :
    Node.Reads tokens value rest := by
  rw [single] at shown
  obtain ⟨place, literal, more, rfl, told, others⟩ := shows_literal (Value.punctuation_of_single single) shown
  rw [Node.Reads, Node.read, told.skipped]
  exact ⟨.scalar single told, _, rfl, others⟩

theorem node_reads_list {items : List Value} {place : Place} {tokens : List Token} {rest : List Lexeme}
    (reads : Items.Reads true tokens items rest) :
    Node.Reads (⟨place, .openList⟩ :: tokens) (.list items) rest := by
  obtain ⟨shows, left⟩ := reads
  rw [Node.Reads, Node.read]
  exact ⟨.list shows, left.widen (by simp)⟩

theorem node_reads_object {members : List (List Nat × Value)} {place : Place} {tokens : List Token}
    {rest : List Lexeme} (reads : Members.Reads true tokens members rest) :
    Node.Reads (⟨place, .openObject⟩ :: tokens) (.object members) rest := by
  obtain ⟨shows, left⟩ := reads
  rw [Node.Reads, Node.read]
  exact ⟨.object shows, left.widen (by simp)⟩

/-- A value starts with a scalar or an opening mark, so it is not taken for the end of a list. -/
theorem start_of_value {value : Value} {tokens : List Token} {rest : List Lexeme}
    (shown : List.Forall₂ Token.Shows tokens (value.lexemes ++ rest)) :
    ∃ place kind more, tokens = ⟨place, kind⟩ :: more ∧ kind ≠ .closeList := by
  have scalar {lexeme : Lexeme} (mark : lexeme.punctuation? = none)
      (shown : List.Forall₂ Token.Shows tokens (lexeme :: rest)) :
      ∃ place kind more, tokens = ⟨place, kind⟩ :: more ∧ kind ≠ .closeList := by
    obtain ⟨place, literal, more, same, _, _⟩ := shows_literal mark shown
    exact ⟨place, .literal literal, more, same, nofun⟩
  cases value with
  | null => exact scalar rfl shown
  | boolean => exact scalar rfl shown
  | number => exact scalar rfl shown
  | string => exact scalar rfl shown
  | list items =>
    obtain ⟨place, more, same, _⟩ := shows_mark rfl shown
    exact ⟨place, .openList, more, same, nofun⟩
  | object members =>
    obtain ⟨place, more, same, _⟩ := shows_mark rfl shown
    exact ⟨place, .openObject, more, same, nofun⟩

theorem items_turn {first : Bool} {value : Value} {tokens : List Token} {rest : List Lexeme}
    (shown : List.Forall₂ Token.Shows tokens (separator first ++ (value.lexemes ++ rest))) :
    ∃ start, Items.turn first tokens = .entry () start ∧
      List.Forall₂ Token.Shows start (value.lexemes ++ rest) := by
  cases first with
  | true =>
    obtain ⟨place, kind, more, rfl, value⟩ := start_of_value shown
    refine ⟨⟨place, kind⟩ :: more, ?_, shown⟩
    cases kind with
    | closeList => exact absurd rfl value
    | _ => rfl
  | false =>
    obtain ⟨comma, tokens, rfl, inside⟩ := shows_mark rfl shown
    obtain ⟨place, kind, more, rfl, value⟩ := start_of_value inside
    refine ⟨⟨place, kind⟩ :: more, ?_, inside⟩
    cases kind with
    | closeList => exact absurd rfl value
    | _ => rfl

theorem items_reads {items : List Value}
    (each : ∀ item ∈ items, ∀ tokens rest, List.Forall₂ Token.Shows tokens (item.lexemes ++ rest) →
      Node.Reads tokens item rest)
    {first : Bool} {tokens : List Token} {rest : List Lexeme}
    (shown : List.Forall₂ Token.Shows tokens (itemLexemes first items ++ .closeList :: rest)) :
    Items.Reads first tokens items rest := by
  induction items generalizing first tokens with
  | nil =>
    obtain ⟨place, more, rfl, others⟩ := shows_mark rfl shown
    exact Items.reads_close rfl others
  | cons item items ih =>
    obtain ⟨own, others⟩ := List.forall_mem_cons.mp each
    simp only [itemLexemes, List.append_assoc] at shown
    obtain ⟨start, turn, shown⟩ := items_turn shown
    exact Items.reads_entry turn (own start _ shown) fun more shown => ih others shown

theorem members_turn {first : Bool} {units : List Nat} {tokens : List Token} {rest : List Lexeme}
    (shown : List.Forall₂ Token.Shows tokens (separator first ++ .string units :: .colon :: rest)) :
    ∃ key colon start, Members.turn first tokens = .entry key (⟨colon, .colon⟩ :: start) ∧
      key.Shows (.string units) ∧ List.Forall₂ Token.Shows start rest := by
  have named {tokens : List Token} (shown : List.Forall₂ Token.Shows tokens (.string units :: .colon :: rest)) :
      ∃ place key colon start, tokens = ⟨place, .literal key⟩ :: ⟨colon, .colon⟩ :: start ∧
        key.Shows (.string units) ∧ List.Forall₂ Token.Shows start rest := by
    obtain ⟨place, key, more, rfl, told, marked⟩ := shows_literal rfl shown
    obtain ⟨colon, start, rfl, others⟩ := shows_mark rfl marked
    exact ⟨place, key, colon, start, rfl, told, others⟩
  cases first with
  | true =>
    obtain ⟨place, key, colon, start, rfl, told, others⟩ := named shown
    exact ⟨key, colon, start, by simp [Members.turn, Members.key, told.quoted, Lexeme.isString], told, others⟩
  | false =>
    obtain ⟨comma, tokens, rfl, inside⟩ := shows_mark rfl shown
    obtain ⟨place, key, colon, start, rfl, told, others⟩ := named inside
    exact ⟨key, colon, start, by simp [Members.turn, Members.key, told.quoted, Lexeme.isString], told, others⟩

theorem members_reads {members : List (List Nat × Value)}
    (each : ∀ member ∈ members, ∀ tokens rest, List.Forall₂ Token.Shows tokens (member.2.lexemes ++ rest) →
      Node.Reads tokens member.2 rest)
    {first : Bool} {tokens : List Token} {rest : List Lexeme}
    (shown : List.Forall₂ Token.Shows tokens (memberLexemes first members ++ .closeObject :: rest)) :
    Members.Reads first tokens members rest := by
  induction members generalizing first tokens with
  | nil =>
    obtain ⟨place, more, rfl, others⟩ := shows_mark rfl shown
    exact Members.reads_close rfl others
  | cons member members ih =>
    obtain ⟨units, value⟩ := member
    obtain ⟨own, others⟩ := List.forall_mem_cons.mp each
    simp only [memberLexemes, List.append_assoc, List.cons_append] at shown
    obtain ⟨key, colon, start, turn, named, shown⟩ := members_turn shown
    exact Members.reads_entry turn named (own start _ shown) fun more shown => ih others shown

theorem node_reads (value : Value) (tokens : List Token) (rest : List Lexeme)
    (shown : List.Forall₂ Token.Shows tokens (value.lexemes ++ rest)) : Node.Reads tokens value rest := by
  induction value using Value.induction generalizing tokens rest with
  | scalar value lexeme single => exact node_reads_scalar single shown
  | list items each =>
    rw [Value.lexemes, List.cons_append, List.append_assoc] at shown
    obtain ⟨place, more, rfl, inside⟩ := shows_mark rfl shown
    exact node_reads_list (items_reads each inside)
  | object members each =>
    rw [Value.lexemes, List.cons_append, List.append_assoc] at shown
    obtain ⟨place, more, rfl, inside⟩ := shows_mark rfl shown
    exact node_reads_object (members_reads each inside)

theorem Document.ofText_of_denotes {text : String} {value : Value} (denotes : Denotes text value) :
    (ofText text).root.Shows value ∧ (ofText text).trailing? = none := by
  have shown := tokens_of_denotes denotes
  rw [← List.append_nil value.lexemes] at shown
  obtain ⟨shows, ⟨more, lt⟩, left, nothing⟩ := node_reads value _ [] shown
  obtain rfl : more = [] := List.forall₂_nil_right_iff.mp nothing
  have read : Node.read (tokens text.toList) = ((Node.read (tokens text.toList)).1, some ⟨[], lt⟩) := Prod.ext rfl left
  rw [ofText, read]
  exact ⟨shows, rfl⟩

end GrammarCheck.Json
