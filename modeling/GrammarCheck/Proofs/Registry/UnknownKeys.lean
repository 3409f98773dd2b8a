import GrammarCheck.Proofs.Json.Written
import GrammarCheck.Proofs.RegistryFile.Value
import GrammarCheck.Proofs.RegistryFile.Written
import GrammarCheck.Registry.Basic

/-! Registry files with keys that nobody knows. Main statement: a member under such a key, anywhere in the
file's object or in that of one of its grammars, changes nothing, if its strings are texts and its
integers have at most 128 bits, or 64 where one is all that stands under the key. -/
namespace GrammarCheck
open Json (Value Lexeme Lexed Denotes itemLexemes memberLexemes)
open Text (units)

namespace RegistryFile

/-- The key of a member is none of these names. -/
def Unlisted (key : List Nat) (names : List String) : Prop := ∀ name ∈ names, key ≠ units name.toList

instance (key : List Nat) (names : List String) : Decidable (Unlisted key names) :=
  inferInstanceAs (Decidable (∀ name ∈ names, key ≠ units name.toList))

/-- A member under an unknown key is put somewhere in the file's object, or in that of one of its grammars. -/
inductive AddsUnknown (key : List Nat) (value : Value) : Value → Value → Prop
  | file {before after : List (List Nat × Value)} (unknown : Unlisted key ["grammar_dir", "grammars"]) :
      AddsUnknown key value (.object (before ++ after)) (.object (before ++ (key, value) :: after))
  | grammar {before after inner outer : List (List Nat × Value)} {first last : List Value}
      (unknown : Unlisted key ["name", "display_name", "library", "symbol", "grammar_json", "sample"]) :
      AddsUnknown key value
        (.object (before ++ (units "grammars".toList, .list (first ++ .object (inner ++ outer) :: last)) :: after))
        (.object (before ++ (units "grammars".toList,
          .list (first ++ .object (inner ++ (key, value) :: outer) :: last)) :: after))

section
variable {key : String} {value : Value} {before after : List (List Nat × Value)}

theorem Unlisted.not_mem {names : List String} (unlisted : Unlisted (units key.toList) names) : key ∉ names :=
  fun listed => unlisted key listed rfl

theorem foldlM_insert {α δ : Type} {step : δ → α → Except Failure δ} {x : α} (idle : ∀ draft, step draft x = .ok draft)
    (before after : List α) (draft : δ) :
    (before ++ x :: after).foldlM step draft = (before ++ after).foldlM step draft := by
  rw [List.foldlM_append, List.foldlM_append]
  refine congrArg _ (funext fun taken => ?_)
  rw [List.foldlM_cons, idle]
  rfl

theorem takeMember_of_skip {δ : Type} {put : Put δ} {draft : δ}
    (unknown : put draft key = fun tokens => (skip tokens).map fun rest => (draft, rest))
    (passed : passing value = .ok ()) : takeMember put draft (units key.toList, value) = .ok draft := by
  have read : Reader.valueOf (put draft key) value = .ok draft := by
    rw [unknown, ← map_skipped draft, Reader.valueOf_map, Reader.valueOf_eq (skipped_value value), passed]
    rfl
  show (stopping (textOf (units key.toList)) >>= _) = _
  rw [textOf_units]
  show Reader.valueOf (put draft (String.ofList key.toList)) value = _
  rw [String.ofList_toList, read]

end

end RegistryFile

variable {key : String} {value : Value} {before after : List (List Nat × Value)}

theorem RegistryFile.ofMembers_insert (unknown : key ∉ ["grammar_dir", "grammars"]) (passed : passing value = .ok ()) :
    ofMembers (before ++ (units key.toList, value) :: after) = ofMembers (before ++ after) := by
  have field : Field.ofKey? key = none := Field.ofKey?_eq_none.mpr unknown
  rw [ofMembers, foldlM_insert]
  · rfl
  · intro draft
    refine takeMember_of_skip ?_ passed
    funext tokens
    rw [Draft.put, field]

theorem GrammarSpec.ofMembers_insert
    (unknown : key ∉ ["name", "display_name", "library", "symbol", "grammar_json", "sample"])
    (passed : RegistryFile.passing value = .ok ()) :
    ofMembers (before ++ (units key.toList, value) :: after) = ofMembers (before ++ after) := by
  have field : Field.ofKey? key = none := Field.ofKey?_eq_none.mpr unknown
  rw [ofMembers, RegistryFile.foldlM_insert]
  · rfl
  · intro draft
    refine RegistryFile.takeMember_of_skip ?_ passed
    funext tokens
    rw [Draft.put, field]

namespace RegistryFile

theorem mapM_congr_at {α β : Type} {f : α → Except Failure β} {x y : α} (same : f x = f y) (first last : List α) :
    (first ++ x :: last).mapM f = (first ++ y :: last).mapM f := by
  rw [List.mapM_append, List.mapM_append, List.mapM_cons, List.mapM_cons, same]

theorem ofMembers_congr_at {member other : List Nat × Value}
    (same : ∀ draft, takeMember Draft.put draft member = takeMember Draft.put draft other) :
    ofMembers (before ++ member :: after) = ofMembers (before ++ other :: after) := by
  rw [ofMembers, ofMembers, List.foldlM_append, List.foldlM_append]
  simp only [List.foldlM_cons, same]

theorem takeMember_grammars {value other : Value} (same : grammarsOf value = grammarsOf other) (draft : Draft) :
    takeMember Draft.put draft (units "grammars".toList, value) =
      takeMember Draft.put draft (units "grammars".toList, other) := by
  have read (value : Value) : Reader.valueOf (Draft.put draft "grammars") value =
      (fun specs => { draft with grammars := some specs }) <$> grammarsOf value := by
    rw [← Reader.valueOf_eq (grammarList_value value)]
    exact Reader.valueOf_map grammarList (fun specs => { draft with grammars := some specs }) value
  show (stopping (textOf (units "grammars".toList)) >>= _) = stopping (textOf (units "grammars".toList)) >>= _
  rw [textOf_units]
  show Reader.valueOf (Draft.put draft (String.ofList "grammars".toList)) value = Reader.valueOf _ other
  rw [String.ofList_toList, read, read, same]

theorem ofText_insert {text other : String} {old new : Value} (denotes : Denotes text old)
    (also : Denotes other new) (added : AddsUnknown (units key.toList) value old new) (ignorable : Ignorable value) :
    ofText other = ofText text := by
  have spelled := spelled_of_denotes also
  cases added with
  | file unknown =>
    have passed := passing_of_ignorable (spelled.member (by simp : (units key.toList, value) ∈ _)) ignorable
    rw [ofText_of_object denotes, ofText_of_object also, ofMembers_insert unknown.not_mem passed]
  | @grammar before after inner outer first last unknown =>
    rw [ofText_of_object denotes, ofText_of_object also]
    have list : Spelled (.list (first ++ .object (inner ++ (units key.toList, value) :: outer) :: last)) :=
      spelled.member (by simp : (units "grammars".toList, _) ∈ _)
    have object : Spelled (.object (inner ++ (units key.toList, value) :: outer)) := list.item (by simp)
    have passed := passing_of_ignorable (object.member (by simp : (units key.toList, value) ∈ _)) ignorable
    refine ofMembers_congr_at (takeMember_grammars (mapM_congr_at ?_ first last))
    exact GrammarSpec.ofMembers_insert unknown.not_mem passed

end RegistryFile

def namedItem : Value := .ofMembers [("name", .ofText "a")]

def plainValue : Value := .ofMembers [("grammars", .list [namedItem])]

def plainText : String := "\x7b\"grammars\":[\x7b\"name\":\"a\"\x7d]\x7d"

/-- Brackets in a key and in a string, and the largest integer that can be passed over. -/
def note : Value :=
  .ofMembers [("]", .list [.number (Json.decimalDigits 340282366920938463463374607431768211455), .ofText "\x7d["])]

def notedValue : Value := .ofMembers [("grammars", .list [.ofMembers [("name", .ofText "a"), ("note", note)]])]

def notedText : String :=
  "\x7b\"grammars\":[\x7b\"name\":\"a\",\"note\":" ++
    "\x7b\"]\":[340282366920938463463374607431768211455,\"\x7d[\"]\x7d\x7d]\x7d"

theorem plain_namedItem : namedItem.Plain := .members (by simp) (by simpa using .text "a")

theorem plainText_denotes : Denotes plainText plainValue := by
  have plain : plainValue.Plain := .members (by simp) (by simpa using .list (by simpa using plain_namedItem))
  have same : plainText = plainValue.written := by decide +kernel
  rw [same]
  exact Json.Value.denotes_written plain.writable

theorem plain_note : note.Plain := by
  refine .members (by simp) ?_
  simp only [List.forall_mem_cons]
  refine ⟨.list ?_, by simp⟩
  simp only [List.forall_mem_cons]
  exact ⟨.integer _, .text _, by simp⟩

theorem notedText_denotes : Denotes notedText notedValue := by
  have item : (Value.ofMembers [("name", .ofText "a"), ("note", note)]).Plain := by
    refine .members (by decide) ?_
    simp only [List.forall_mem_cons]
    exact ⟨.text "a", plain_note, by simp⟩
  have plain : notedValue.Plain := .members (by simp) (by simpa using .list (by simpa using item))
  have same : notedText = notedValue.written := by decide +kernel
  rw [same]
  exact Json.Value.denotes_written plain.writable

theorem note_ignorable : RegistryFile.Ignorable note := by
  have integer : RegistryFile.integer? (Json.decimalDigits 340282366920938463463374607431768211455) =
      some 340282366920938463463374607431768211455 := by decide +kernel
  have fits : ∀ n ∈ RegistryFile.integer? (Json.decimalDigits 340282366920938463463374607431768211455),
      RegistryFile.FitsIn 128 n := by
    rw [integer]
    rintro n ⟨⟩
    exact ⟨by decide, by decide⟩
  have row : note.lexemes = [.openObject, .string (units "]".toList), .colon, .openList,
      .number (Json.decimalDigits 340282366920938463463374607431768211455), .comma,
      .string (units "\x7d[".toList), .closeList, .closeObject] := by
    simp only [note, Value.ofMembers, Value.keyed, Value.ofText, Value.lexemes, itemLexemes, memberLexemes,
      Json.separator, List.map_cons, List.map_nil, List.append_nil, List.nil_append, List.cons_append, if_true,
      Bool.false_eq_true, if_false]
  constructor
  · rw [row]
    simp only [List.forall_mem_cons]
    exact ⟨trivial, ⟨_, rfl⟩, trivial, trivial, fits, trivial, ⟨_, rfl⟩, trivial, trivial, by simp⟩
  · intro _ same
    cases same

/-- The same file with one more member. -/
def withMember (key : List Nat) (value : Value) : Value :=
  .object [(units "grammars".toList, .list [namedItem]), (key, value)]

/-- The lexemes of a file with one more member, up to that member. -/
def plainFront : List Lexeme :=
  [.openObject, .string (units "grammars".toList), .colon, .openList, .openObject, .string (units "name".toList),
    .colon, .string (units "a".toList), .closeObject, .closeList, .comma]

theorem lexed_plainFront : Lexed (plainFront.flatMap Lexeme.spelling) plainFront := by
  apply Json.lexed_spelling
  simp only [plainFront, List.forall_mem_cons]
  exact ⟨trivial, ⟨_, rfl⟩, trivial, trivial, trivial, ⟨_, rfl⟩, trivial, ⟨_, rfl⟩, trivial, trivial, trivial, by simp⟩

/-- A text of the file with one more member, and it is refused. -/
structure RefusesMember (text : String) (key : List Nat) (value : Value) : Prop where
  denotes : Denotes text (withMember key value)
  adds : RegistryFile.AddsUnknown key value plainValue (withMember key value)
  refused : (Registry.ofText text ⟨"dir"⟩).isOk = false

theorem refusesMember {text : String} {key : List Nat} {value : Value} {name spelling : List Char}
    (named : Lexed name [.string key]) (lexed : Lexed spelling value.lexemes)
    (same : text.toList = plainFront.flatMap Lexeme.spelling ++ (name ++ ':' :: (spelling ++ ['}'])))
    (unknown : RegistryFile.Unlisted key ["grammar_dir", "grammars"])
    (refused : (Registry.ofText text ⟨"dir"⟩).isOk = false) : RefusesMember text key value where
  denotes := by
    have row : (withMember key value).lexemes =
        plainFront ++ ([.string key] ++ .colon :: (value.lexemes ++ [.closeObject])) := by
      simp [plainFront, withMember, namedItem, Value.ofMembers, Value.keyed, Value.ofText, Value.lexemes, itemLexemes,
        memberLexemes, Json.separator]
    have member : Lexed (':' :: (spelling ++ ['}'])) (.colon :: (value.lexemes ++ [.closeObject])) :=
      .cons .colon (Json.lexed_append lexed (.cons .closeObject .nil))
    rw [Denotes, same, row]
    exact Json.lexed_append lexed_plainFront (Json.lexed_append named member)
  adds := @RegistryFile.AddsUnknown.file _ _ [(units "grammars".toList, .list [namedItem])] [] unknown
  refused := refused

def loneHalf : List Char := ['"', '\\', 'u', 'd', '8', '0', '0', '"']

theorem lexed_loneHalf : Lexed loneHalf [.string [0xd800]] := by
  have zero : Json.HexDigit '0' 0 := .digit (by decide) (by decide)
  have eight : Json.HexDigit '8' 8 := .digit (by decide) (by decide)
  have d : Json.HexDigit 'd' 13 := .small (by decide) (by decide)
  have half : Json.Spells ['\\', 'u', 'd', '8', '0', '0'] [0xd800] := .unit d eight zero zero .nil
  exact .cons (.string half) .nil

theorem lexed_x : Lexed ['"', 'x', '"'] [.string (units "x".toList)] :=
  .cons (.string (.plain (by decide) (by decide) (by decide) .nil)) .nil

theorem unlisted_x : RegistryFile.Unlisted (units "x".toList) ["grammar_dir", "grammars"] := by decide +kernel

def halfKeyText : String := "\x7b\"grammars\":[\x7b\"name\":\"a\"\x7d],\"\\ud800\":null\x7d"

def halfText : String := "\x7b\"grammars\":[\x7b\"name\":\"a\"\x7d],\"x\":\"\\ud800\"\x7d"

def hugeText : String :=
  "\x7b\"grammars\":[\x7b\"name\":\"a\"\x7d],\"x\":[340282366920938463463374607431768211456]\x7d"

def hugeValue : Value := .list [.number (Json.decimalDigits 340282366920938463463374607431768211456)]

def wideText : String := "\x7b\"grammars\":[\x7b\"name\":\"a\"\x7d],\"x\":18446744073709551616\x7d"

def wideValue : Value := .number (Json.decimalDigits 18446744073709551616)

end GrammarCheck
