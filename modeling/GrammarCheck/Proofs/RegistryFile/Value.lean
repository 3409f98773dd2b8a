import GrammarCheck.Proofs.RegistryFile.Members
import GrammarCheck.Proofs.RegistryFile.Skipping

/-! Registry files read from JSON values of any kind. Main statements: what is read of a value does not
depend on what stands after it, whether it is passed over or taken, so that an object is read member
by member and a list item by item, up to the first fault. -/
namespace GrammarCheck.RegistryFile
open Json (Value Lexeme itemLexemes memberLexemes separator)

abbrev Reader (α : Type) := List Token → Except Failure (α × List Token)

namespace Reader
variable {α β : Type}

def map (read : Reader α) (f : α → β) : Reader β := fun tokens => (read tokens).map fun (x, rest) => (f x, rest)

/-- What is read of the value of a member with nothing after it. -/
def valueOf (read : Reader α) (value : Value) : Except Failure α := Prod.fst <$> read (heard (.colon :: value.lexemes))

/-- What is read of the value of a member, and that it is read to its end, does not depend on what stands after it. -/
def Local (read : Reader α) : Prop := ∀ value more,
  read (heard (.colon :: (Value.lexemes value ++ more))) = (·, heard more) <$> read.valueOf value

theorem valueOf_eq {read : Reader α} {value : Value} {outcome : Except Failure α}
    (reads : ∀ more, read (heard (.colon :: (value.lexemes ++ more))) = (·, heard more) <$> outcome) :
    read.valueOf value = outcome := by
  have alone := reads []
  rw [List.append_nil] at alone
  rw [valueOf, alone]
  cases outcome <;> rfl

theorem local_of_outcome {read : Reader α} (outcome : Value → Except Failure α) (reads : ∀ value more,
    read (heard (.colon :: (Value.lexemes value ++ more))) = (·, heard more) <$> outcome value) : read.Local := by
  intro value more
  rw [reads, valueOf_eq (reads value)]

theorem valueOf_map (read : Reader α) (f : α → β) (value : Value) :
    (read.map f).valueOf value = f <$> read.valueOf value := by
  rw [valueOf, valueOf, map]
  cases read (heard (.colon :: value.lexemes)) <;> rfl

theorem Local.map {read : Reader α} (reads : read.Local) (f : α → β) : (read.map f).Local := by
  intro value more
  rw [Reader.map, reads, valueOf_map]
  cases read.valueOf value <;> rfl

end Reader

/-- Passing over a value, as a reader of nothing. -/
def skipped : Reader Unit := fun tokens => (skip tokens).map ((), ·)

theorem skipped_value (value : Value) (more : List Lexeme) :
    skipped (heard (.colon :: (value.lexemes ++ more))) = (·, heard more) <$> passing value := by
  rw [skipped, skip_value]
  cases passing value <;> rfl

theorem local_skipped : skipped.Local := Reader.local_of_outcome passing skipped_value

theorem map_skipped {α : Type} (x : α) :
    skipped.map (fun _ => x) = fun tokens => (skip tokens).map fun rest => (x, rest) := by
  funext tokens
  rw [Reader.map, skipped]
  cases skip tokens <;> rfl

/-- The lexeme that tells values of different kinds apart. -/
def opening (value : Value) : Lexeme := value.lexemes.headD .comma

theorem next_value {expected : Expected} (value : Value) (more : List Lexeme) :
    next expected (heard (value.lexemes ++ more)) =
      (·, heard (value.lexemes.tail ++ more)) <$> stopping (hear (opening value)) := by
  rw [opening]
  cases value with
  | null => rfl
  | boolean => rfl
  | list => rfl
  | object => rfl
  | number literal =>
    rw [Value.lexemes, List.headD_cons, List.singleton_append, heard, hear]
    cases numberOf literal <;> rfl
  | string units =>
    rw [Value.lexemes, List.headD_cons, List.singleton_append, heard, hear]
    cases textOf units <;> rfl

/-- What a text or null is taken as. -/
def takeText : Token → Except Failure (Option String)
  | .string text => .ok (some text)
  | .null => .ok none
  | token => .error (.fault (token.misfit "String"))

theorem optionalText_value (value : Value) (more : List Lexeme) :
    optionalText (heard (.colon :: (value.lexemes ++ more))) =
      (·, heard more) <$> (stopping (hear (opening value)) >>= takeText) := by
  rw [optionalText, heard, hear]
  cases value with
  | null => rfl
  | boolean => rfl
  | list => rfl
  | object => rfl
  | number literal =>
    rw [opening, Value.lexemes, List.headD_cons, List.singleton_append, heard, hear]
    cases numberOf literal <;> rfl
  | string units =>
    rw [opening, Value.lexemes, List.headD_cons, List.singleton_append, heard, hear]
    cases textOf units <;> rfl

theorem local_optionalText : Reader.Local optionalText := Reader.local_of_outcome _ optionalText_value

section
variable {δ : Type} {put : Put δ} {shortens : put.Shortens}

theorem members_eq (draft : δ) (tokens : List Token) : members put shortens draft tokens =
    nextKey tokens >>= fun found => match found with
      | (none, rest) => .ok (draft, rest)
      | (some key, rest) => put draft key rest >>= fun (taken, rest) => members put shortens taken rest := by
  rw [members]
  split
  · next found => rw [found]; rfl
  · next found => rw [found]; rfl
  · next found =>
    rw [found]
    show _ = put draft _ _ >>= _
    split
    · next refused => rw [refused]; rfl
    · next taken => rw [taken]; rfl

theorem nextKey_string (first : Bool) (key : List Nat) (more : List Lexeme) :
    nextKey (heard (separator first ++ .string key :: more)) =
      (fun text => (some (String.ofList text), heard more)) <$> stopping (textOf key) := by
  cases first with
  | true =>
    rw [separator, if_pos rfl, List.nil_append, heard, hear]
    cases textOf key <;> rfl
  | false =>
    rw [separator, if_neg Bool.false_ne_true, List.singleton_append, heard, hear, heard, hear]
    cases textOf key <;> rfl

/-- What a draft becomes as a member is read. -/
def takeMember (put : Put δ) (draft : δ) (member : List Nat × Value) : Except Failure δ :=
  stopping (textOf member.1) >>= fun key => Reader.valueOf (put draft (String.ofList key)) member.2

theorem members_heard (shortens : put.Shortens) (each : ∀ draft key, Reader.Local (put draft key)) (first : Bool)
    (all : List (List Nat × Value)) (draft : δ) (more : List Lexeme) :
    members put shortens draft (heard (memberLexemes first all ++ .closeObject :: more)) =
      (·, heard more) <$> all.foldlM (takeMember put) draft := by
  induction all generalizing first draft with
  | nil =>
    rw [members_eq]
    rfl
  | cons member all ih =>
    obtain ⟨key, value⟩ := member
    rw [memberLexemes, List.append_assoc, List.cons_append, List.cons_append, List.append_assoc, members_eq,
      nextKey_string, List.foldlM_cons, takeMember]
    cases textOf key with
    | error fault => rfl
    | ok text =>
      show (put draft (String.ofList text) _ >>= _) = _ <$> (Reader.valueOf _ _ >>= _)
      rw [each]
      cases Reader.valueOf (put draft (String.ofList text)) value with
      | error fault => rfl
      | ok taken => exact ih false taken

end

end GrammarCheck.RegistryFile

namespace GrammarCheck.GrammarSpec
open RegistryFile (Failure Token Reader heard hear stopping opening)
open Json (Value Lexeme itemLexemes memberLexemes separator)

theorem Draft.local_put (draft : Draft) (key : String) : Reader.Local (put draft key) := by
  unfold put
  cases Field.ofKey? key with
  | some field => exact RegistryFile.local_optionalText.map fun value => draft.set value field
  | none => exact RegistryFile.map_skipped draft ▸ RegistryFile.local_skipped.map fun _ => draft

/-- The grammar that is read of the members of an object. -/
def ofMembers (members : List (List Nat × Value)) : Except Failure GrammarSpec :=
  members.foldlM (RegistryFile.takeMember Draft.put) Draft.empty >>= Draft.spec

theorem ofTokens_heard (members : List (List Nat × Value)) (more : List Lexeme) :
    ofTokens (heard (memberLexemes true members ++ .closeObject :: more)) = (·, heard more) <$> ofMembers members := by
  rw [ofTokens, RegistryFile.members_heard Draft.put_shortens Draft.local_put, ofMembers]
  cases members.foldlM (RegistryFile.takeMember Draft.put) Draft.empty with
  | error fault => rfl
  | ok draft =>
    show draft.spec.map _ = _ <$> draft.spec
    cases draft.spec <;> rfl

/-- The grammar that is read of an item of a list. -/
def ofItem : Value → Except Failure GrammarSpec
  | .object members => ofMembers members
  | value => stopping (hear (opening value)) >>= fun token => .error (.fault (token.misfit "GrammarSpec"))

theorem listOfTokens_eq (tokens : List Token) : listOfTokens tokens =
    RegistryFile.next .item tokens >>= fun found => match found with
      | (.closeList, rest) => .ok ([], rest)
      | (.openObject, rest) => ofTokens rest >>= fun (spec, rest) =>
        (listOfTokens rest).map fun (specs, after) => (spec :: specs, after)
      | (token, _) => .error (.fault (token.misfit "GrammarSpec")) := by
  rw [listOfTokens]
  split
  · next found => rw [found]; rfl
  · next found => rw [found]; rfl
  · next found =>
    rw [found]
    show _ = ofTokens _ >>= _
    split
    · next refused => rw [refused]; rfl
    · next taken => rw [taken]; rfl
  · next token _ _ _ found =>
    rw [found]
    cases token <;> first | rfl | contradiction

theorem next_item (first : Bool) (value : Value) (more : List Lexeme) :
    RegistryFile.next .item (heard (separator first ++ (value.lexemes ++ more))) =
      (·, heard (value.lexemes.tail ++ more)) <$> stopping (hear (opening value)) := by
  cases first with
  | true => exact RegistryFile.next_value value more
  | false => exact RegistryFile.next_value value more

theorem listOfTokens_heard (first : Bool) (items : List Value) (more : List Lexeme) :
    listOfTokens (heard (itemLexemes first items ++ .closeList :: more)) = (·, heard more) <$> items.mapM ofItem := by
  induction items generalizing first with
  | nil =>
    rw [listOfTokens_eq]
    rfl
  | cons item items ih =>
    rw [itemLexemes, List.append_assoc, List.append_assoc, listOfTokens_eq, next_item, List.mapM_cons]
    have others := ih false
    cases item with
    | object members =>
      have rest : (Value.object members).lexemes.tail ++ (itemLexemes false items ++ .closeList :: more) =
          memberLexemes true members ++ .closeObject :: (itemLexemes false items ++ .closeList :: more) := by
        simp [Value.lexemes]
      rw [rest]
      show (ofTokens _ >>= _) = _ <$> (ofMembers members >>= _)
      rw [ofTokens_heard]
      cases ofMembers members with
      | error fault => rfl
      | ok spec =>
        show (listOfTokens _).map _ = _ <$> (items.mapM ofItem >>= _)
        rw [others]
        cases items.mapM ofItem <;> rfl
    | null => rfl
    | boolean => rfl
    | list => rfl
    | number literal =>
      simp only [ofItem, opening, Value.lexemes, List.headD_cons, hear]
      cases RegistryFile.numberOf literal <;> rfl
    | string units =>
      simp only [ofItem, opening, Value.lexemes, List.headD_cons, hear]
      cases RegistryFile.textOf units <;> rfl

end GrammarCheck.GrammarSpec

namespace GrammarCheck.RegistryFile
open Json (Value Lexeme Denotes itemLexemes memberLexemes)

/-- The grammars that are read of a value. -/
def grammarsOf : Value → Except Failure (List GrammarSpec)
  | .list items => items.mapM GrammarSpec.ofItem
  | .null => .ok []
  | value => stopping (hear (opening value)) >>= fun token => .error (.fault (token.misfit "Vec<GrammarSpec>"))

theorem grammarList_value (value : Value) (more : List Lexeme) :
    grammarList (heard (.colon :: (value.lexemes ++ more))) = (·, heard more) <$> grammarsOf value := by
  rw [grammarList, heard, hear]
  cases value with
  | null => rfl
  | boolean => rfl
  | object => rfl
  | number literal =>
    simp only [grammarsOf, opening, Value.lexemes, List.headD_cons, List.singleton_append, heard, hear]
    cases numberOf literal <;> rfl
  | string units =>
    simp only [grammarsOf, opening, Value.lexemes, List.headD_cons, List.singleton_append, heard, hear]
    cases textOf units <;> rfl
  | list items =>
    rw [Value.lexemes, List.cons_append, List.append_assoc]
    exact GrammarSpec.listOfTokens_heard true items more

theorem local_grammarList : Reader.Local grammarList := Reader.local_of_outcome _ grammarList_value

theorem Draft.local_put (draft : Draft) (key : String) : Reader.Local (put draft key) := by
  unfold put
  cases Field.ofKey? key with
  | some field =>
    cases field with
    | grammarDir => exact local_optionalText.map fun value => { draft with grammarDir := value }
    | grammars => exact local_grammarList.map fun specs => { draft with grammars := some specs }
  | none => exact map_skipped draft ▸ local_skipped.map fun _ => draft

/-- The file that is read of the members of an object. -/
def ofMembers (members : List (List Nat × Value)) : Except Failure RegistryFile :=
  members.foldlM (takeMember Draft.put) Draft.empty >>= Draft.file

theorem ofTokens_object (all : List (List Nat × Value)) :
    ofTokens (heard (Value.object all).lexemes) = ofMembers all := by
  have read := members_heard Draft.put_shortens Draft.local_put true all Draft.empty []
  have opened : next .value (heard (Value.object all).lexemes) =
      .ok (.openObject, heard (memberLexemes true all ++ [.closeObject])) := by
    rw [Value.lexemes, heard]
    rfl
  rw [ofTokens, opened]
  simp only [read, ofMembers]
  cases all.foldlM (takeMember Draft.put) Draft.empty <;> rfl

theorem ofText_of_object {text : String} {all : List (List Nat × Value)} (denotes : Denotes text (.object all)) :
    ofText text = ofMembers all := by
  rw [ofText, tokens_of_denotes denotes, ofTokens_object]

end GrammarCheck.RegistryFile
