import GrammarCheck.Json.Token

/-! The tree of a JSON text, well formed or not. A fault breaks the tree off where it stands, so that a
reader that walks the tree in order meets the first fault of its own, be it in the text or in what the
text says. Keeping and passing over can differ in the fault they find, and both are recorded. -/
namespace GrammarCheck.Json

mutual

inductive Node where
  | missing
  | stray (place : Place)
  | scalar (place : Place) (literal : Literal)
  | list (place : Place) (items : Items)
  | object (place : Place) (members : Members)

/-- `settled` is the place that a reader who gives up after the item is left at: past the end of the
list or past a comma if one follows. -/
inductive Items where
  | close (after : Place)
  | item (value : Node) (settled : Place) (next : Items)
  | broken (kept skipped : Fault)

/-- `settled` is as for items, but a comma is not passed. A key without a colon is `bare`. -/
inductive Members where
  | close (after : Place)
  | member (key : Literal) (colon : Place) (value : Node) (settled : Place) (next : Members)
  | bare (key : Literal) (settled : Place) (fault : Fault)
  | broken (kept skipped : Fault)

end

/-- What comes next in a list or an object: its end, another entry, or neither. -/
inductive Turn (α : Type) where
  | close (after : Place) (rest : List Token)
  | entry (head : α) (rest : List Token)
  | broken (kept skipped : Fault)

def Items.turn (first : Bool) : List Token → Turn Unit
  | [] => .broken (Cause.endInList.here []) (Cause.endInList.here [])
  | ⟨place, .closeList⟩ :: rest => .close place.tail rest
  | ⟨place, kind⟩ :: rest =>
    match first, kind with
    | true, _ => .entry () (⟨place, kind⟩ :: rest)
    | false, .comma =>
      match rest with
      | [] => .broken (Cause.endInValue.here []) (Cause.endInValue.here [])
      | ⟨place, .closeList⟩ :: _ => .broken (Cause.trailingComma.next place) (Cause.expectedValue.next place)
      | rest => .entry () rest
    | false, _ => .broken (Cause.expectedItemEnd.next place) (Cause.expectedItemEnd.next place)

def Items.settled : List Token → Place
  | [] => []
  | ⟨place, .closeList⟩ :: _ => place.tail
  | [⟨_, .comma⟩] => []
  | ⟨_, .comma⟩ :: ⟨place, _⟩ :: _ => place
  | ⟨place, _⟩ :: _ => place

def Members.key : List Token → Turn Literal
  | [] => .broken (Cause.endInValue.here []) (Cause.endInObject.here [])
  | ⟨place, .closeObject⟩ :: _ => .broken (Cause.trailingComma.next place) (Cause.keyNotString.next place)
  | ⟨place, .literal key⟩ :: rest =>
    if key.isQuoted then .entry key rest
    else .broken (Cause.keyNotString.next place) (Cause.keyNotString.next place)
  | ⟨place, _⟩ :: _ => .broken (Cause.keyNotString.next place) (Cause.keyNotString.next place)

def Members.turn (first : Bool) : List Token → Turn Literal
  | [] => .broken (Cause.endInObject.here []) (Cause.endInObject.here [])
  | ⟨place, .closeObject⟩ :: rest => .close place.tail rest
  | ⟨place, kind⟩ :: rest =>
    match first, kind with
    | true, _ => Members.key (⟨place, kind⟩ :: rest)
    | false, .comma => Members.key rest
    | false, _ => .broken (Cause.expectedMemberEnd.next place) (Cause.expectedMemberEnd.next place)

def Members.settled : List Token → Place
  | [] => []
  | ⟨place, .closeObject⟩ :: _ => place.tail
  | ⟨place, _⟩ :: _ => place

theorem Items.length_of_close {first : Bool} {tokens rest : List Token} {after : Place}
    (turn : Items.turn first tokens = .close after rest) : rest.length < tokens.length := by
  unfold Items.turn at turn
  split at turn <;> try contradiction
  · cases turn; simp
  · split at turn <;> try contradiction
    split at turn <;> contradiction

theorem Items.length_of_entry {first : Bool} {tokens rest : List Token}
    (turn : Items.turn first tokens = .entry () rest) : rest.length ≤ tokens.length := by
  unfold Items.turn at turn
  split at turn <;> try contradiction
  split at turn <;> try contradiction
  · cases turn; simp
  · split at turn <;> try contradiction
    cases turn; simp

theorem Members.length_of_key {tokens rest : List Token} {key : Literal}
    (turn : Members.key tokens = .entry key rest) : rest.length < tokens.length := by
  unfold Members.key at turn
  split at turn <;> try contradiction
  split at turn <;> try contradiction
  cases turn; simp

theorem Members.key_ne_close {tokens rest : List Token} {after : Place} :
    Members.key tokens ≠ .close after rest := by
  unfold Members.key
  split <;> try simp
  split <;> simp

theorem Members.length_of_close {first : Bool} {tokens rest : List Token} {after : Place}
    (turn : Members.turn first tokens = .close after rest) : rest.length < tokens.length := by
  unfold Members.turn at turn
  split at turn <;> try contradiction
  · cases turn; simp
  · split at turn
    · exact absurd turn Members.key_ne_close
    · exact absurd turn Members.key_ne_close
    · contradiction

theorem Members.length_of_entry {first : Bool} {tokens rest : List Token} {key : Literal}
    (turn : Members.turn first tokens = .entry key rest) : rest.length < tokens.length := by
  unfold Members.turn at turn
  split at turn <;> try contradiction
  split at turn <;> try contradiction
  · exact Members.length_of_key turn
  · exact Nat.lt_succ_of_lt (Members.length_of_key turn)

/-- What is left after reading: fewer tokens, or nothing that could be gone on with. -/
abbrev Left (tokens : List Token) := Option { rest : List Token // rest.length < tokens.length }

def Left.widen {tokens more : List Token} (le : tokens.length ≤ more.length) : Left tokens → Left more
  | some ⟨rest, lt⟩ => some ⟨rest, Nat.lt_of_lt_of_le lt le⟩
  | none => none

mutual

def Node.read : (tokens : List Token) → Node × Left tokens
  | [] => (.missing, none)
  | ⟨place, .literal literal⟩ :: rest =>
    (.scalar place literal, if literal.skipFault?.isSome then none else some ⟨rest, by simp⟩)
  | ⟨place, .openList⟩ :: rest =>
    let (items, left) := Items.read true rest
    (.list place items, left.widen (by simp))
  | ⟨place, .openObject⟩ :: rest =>
    let (members, left) := Members.read true rest
    (.object place members, left.widen (by simp))
  | ⟨place, _⟩ :: _ => (.stray place, none)
termination_by tokens => 2 * tokens.length

def Items.read (first : Bool) (tokens : List Token) : Items × Left tokens :=
  match _turn : Items.turn first tokens with
  | .close after rest => (.close after, some ⟨rest, Items.length_of_close _turn⟩)
  | .broken kept skipped => (.broken kept skipped, none)
  | .entry () start =>
    have le := Items.length_of_entry _turn
    match Node.read start with
    | (value, none) =>
      (.item value [] (.broken (Cause.endInList.here []) (Cause.endInList.here [])), none)
    | (value, some ⟨rest, lt⟩) =>
      let (next, left) := Items.read false rest
      (.item value (Items.settled rest) next, left.widen (by omega))
termination_by 2 * tokens.length + 1

def Members.read (first : Bool) (tokens : List Token) : Members × Left tokens :=
  match _turn : Members.turn first tokens with
  | .close after rest => (.close after, some ⟨rest, Members.length_of_close _turn⟩)
  | .broken kept skipped => (.broken kept skipped, none)
  | .entry key [] => (.bare key [] (Cause.endInObject.here []), none)
  | .entry key (⟨colon, .colon⟩ :: start) =>
    have lt : start.length + 1 < tokens.length := Members.length_of_entry _turn
    match Node.read start with
    | (value, none) =>
      (.member key colon value [] (.broken (Cause.endInObject.here []) (Cause.endInObject.here [])), none)
    | (value, some ⟨rest, shorter⟩) =>
      let (next, left) := Members.read false rest
      (.member key colon value (Members.settled rest) next, left.widen (by omega))
  | .entry key (token :: rest) =>
    (.bare key (Members.settled (token :: rest)) (Cause.expectedColon.next token.place), none)
termination_by 2 * tokens.length + 1

end

/-- A JSON text: one value, and the place of the first thing after it. -/
structure Document where
  root : Node
  trailing? : Option Place

def Document.ofText (text : String) : Document :=
  match Node.read (tokens text.toList) with
  | (root, none) => ⟨root, none⟩
  | (root, some ⟨rest, _⟩) => ⟨root, rest.head?.map Token.place⟩

end GrammarCheck.Json
