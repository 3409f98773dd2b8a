import GrammarCheck.Proofs.Json.Tree
import GrammarCheck.Proofs.RegistryFile.Tokens
import GrammarCheck.RegistryFile.Stream

/-! Passing over values in a registry file. Main statements: brackets of either kind close each other, so that
a JSON value is passed over as a whole and what stands after it is left, up to the first fault, and there
is no fault in a value whose strings are texts and whose integers are not too large. -/
namespace GrammarCheck.RegistryFile
open Json (Value Lexeme Lexed Denotes itemLexemes memberLexemes separator)
open Text (units)

/-- Whether each of these lexemes can be read. -/
def legible : List Lexeme → Except Failure Unit
  | [] => .ok ()
  | lexeme :: rest => stopping (hear lexeme) >>= fun _ => legible rest

theorem legible_append (first second : List Lexeme) :
    legible (first ++ second) = legible first >>= fun _ => legible second := by
  induction first with
  | nil => rfl
  | cons lexeme first ih =>
    rw [List.cons_append, legible, legible, ih]
    cases hear lexeme <;> rfl

/-- Lexemes that are passed over one by one, whatever is open around them: no bracket among them is left open. -/
def Passed (row : List Lexeme) : Prop := ∀ depth more,
  skipInside depth (heard (row ++ more)) = legible row >>= fun _ => skipInside depth (heard more)

theorem passed_nil : Passed [] := fun _ _ => rfl

theorem passed_append {first second : List Lexeme} (one : Passed first) (other : Passed second) :
    Passed (first ++ second) := by
  intro depth more
  rw [List.append_assoc, one, other, legible_append, bind_assoc]

theorem passed_single {lexeme : Lexeme} (flat : ∀ mark ∈ lexeme.punctuation?, mark = .comma ∨ mark = .colon) :
    Passed [lexeme] := by
  intro depth more
  rw [List.singleton_append, heard, legible]
  cases lexeme with
  | null => cases depth <;> rfl
  | boolean => cases depth <;> rfl
  | comma => cases depth <;> rfl
  | colon => cases depth <;> rfl
  | number literal =>
    rw [hear]
    cases numberOf literal <;> cases depth <;> rfl
  | string units =>
    rw [hear]
    cases textOf units <;> cases depth <;> rfl
  | _ => simp [Lexeme.punctuation?] at flat

theorem passed_separator (first : Bool) : Passed (separator first) := by
  cases first with
  | true => exact passed_nil
  | false => exact passed_single (by simp [Lexeme.punctuation?])

/-- Brackets of either kind close each other. -/
theorem passed_between {start stop : Lexeme} {row : List Lexeme} (opens : start = .openList ∨ start = .openObject)
    (closes : stop = .closeList ∨ stop = .closeObject) (inside : Passed row) : Passed (start :: (row ++ [stop])) := by
  intro depth more
  have opened : skipInside depth (heard (start :: (row ++ stop :: more))) =
      skipInside (depth + 1) (heard (row ++ stop :: more)) := by
    rcases opens with rfl | rfl <;> cases depth <;> rfl
  have closed : skipInside (depth + 1) (heard (stop :: more)) = skipInside depth (heard more) := by
    rcases closes with rfl | rfl <;> rfl
  have marks : legible (start :: (row ++ [stop])) = legible row := by
    have last : legible [stop] = .ok () := by rcases closes with rfl | rfl <;> rfl
    have both : legible (row ++ [stop]) = legible row := by
      rw [legible_append, last]
      cases legible row <;> rfl
    rcases opens with rfl | rfl <;> exact both
  rw [List.cons_append, List.append_assoc, List.singleton_append, opened, inside, closed, marks]

theorem passed_items {items : List Value} (each : ∀ item ∈ items, Passed item.lexemes) (first : Bool) :
    Passed (itemLexemes first items) := by
  induction items generalizing first with
  | nil => exact passed_nil
  | cons item items ih =>
    obtain ⟨own, others⟩ := List.forall_mem_cons.mp each
    rw [itemLexemes]
    exact passed_append (passed_separator first) (passed_append own (ih others false))

theorem passed_members {members : List (List Nat × Value)} (each : ∀ member ∈ members, Passed member.2.lexemes)
    (first : Bool) : Passed (memberLexemes first members) := by
  induction members generalizing first with
  | nil => exact passed_nil
  | cons member members ih =>
    obtain ⟨key, value⟩ := member
    obtain ⟨own, others⟩ := List.forall_mem_cons.mp each
    have named : Passed ([.string key] ++ [.colon]) :=
      passed_append (passed_single (by simp [Lexeme.punctuation?])) (passed_single (by simp [Lexeme.punctuation?]))
    rw [memberLexemes]
    exact passed_append (passed_separator first) (passed_append named (passed_append own (ih others false)))

theorem passed_value (value : Value) : Passed value.lexemes := by
  induction value using Value.induction with
  | scalar value lexeme single =>
    rw [single]
    apply passed_single
    simp [Value.punctuation_of_single single]
  | list items each =>
    rw [Value.lexemes]
    exact passed_between (.inl rfl) (.inl rfl) (passed_items each true)
  | object members each =>
    rw [Value.lexemes]
    exact passed_between (.inr rfl) (.inr rfl) (passed_members each true)

/-- Integers of more than 64 bits are not passed over where they stand alone. -/
def narrow : Token → Except Failure Unit
  | .number (.wideUnsigned _) => .error (.fault (.unexpected 'U' "value"))
  | .number (.wideSigned _) => .error (.fault (.unexpected 'I' "value"))
  | _ => .ok ()

/-- What it takes to pass over the value of a member. -/
def passing : Value → Except Failure Unit
  | .list items => legible (itemLexemes true items)
  | .object members => legible (memberLexemes true members)
  | scalar => stopping (hear (scalar.lexemes.headD .comma)) >>= narrow

theorem skip_scalar {lexeme : Lexeme} (scalar : lexeme.punctuation? = none) (more : List Lexeme) :
    skip (heard (.colon :: lexeme :: more)) = (fun _ => heard more) <$> (stopping (hear lexeme) >>= narrow) := by
  rw [heard, hear, skip, heard]
  cases lexeme with
  | null => rfl
  | boolean => rfl
  | number literal =>
    rw [hear]
    cases numberOf literal with
    | error => rfl
    | ok number => cases number <;> rfl
  | string units =>
    rw [hear]
    cases textOf units <;> rfl
  | _ => contradiction

theorem skip_between {start stop : Lexeme} {row : List Lexeme} (opens : start = .openList ∨ start = .openObject)
    (closes : stop = .closeList ∨ stop = .closeObject) (inside : Passed row) (more : List Lexeme) :
    skip (heard (.colon :: start :: (row ++ stop :: more))) = (fun _ => heard more) <$> legible row := by
  have opened : skip (heard (.colon :: start :: (row ++ stop :: more))) =
      skipInside 0 (heard (row ++ stop :: more)) := by
    rcases opens with rfl | rfl <;> rw [heard, hear, skip, heard, hear, skip]
  have closed : skipInside 0 (heard (stop :: more)) = .ok (heard more) := by
    rcases closes with rfl | rfl <;> rfl
  rw [opened, inside, closed]
  cases legible row <;> rfl

theorem skip_value (value : Value) (more : List Lexeme) :
    skip (heard (.colon :: (value.lexemes ++ more))) = (fun _ => heard more) <$> passing value := by
  cases value with
  | list items =>
    rw [Value.lexemes, List.cons_append, List.append_assoc]
    exact skip_between (.inl rfl) (.inl rfl) (passed_items (fun item _ => passed_value item) true) more
  | object members =>
    rw [Value.lexemes, List.cons_append, List.append_assoc]
    exact skip_between (.inr rfl) (.inr rfl) (passed_members (fun member _ => passed_value member.2) true) more
  | null => exact skip_scalar rfl more
  | boolean value => exact skip_scalar rfl more
  | number literal => exact skip_scalar rfl more
  | string units => exact skip_scalar rfl more

/-- Strings are texts, without halves of characters, and integers have at most 128 bits. -/
def Legible : Lexeme → Prop
  | .number literal => ∀ n ∈ integer? literal, FitsIn 128 n
  | .string half => ∃ text, half = units text
  | _ => True

/-- A value that can be passed over under a key that is not known. -/
structure Ignorable (value : Value) : Prop where
  legible : ∀ lexeme ∈ value.lexemes, Legible lexeme
  narrow : ∀ literal, value = .number literal → ∀ n ∈ integer? literal, FitsIn 64 n

theorem narrow_number {number : Number} (small : ¬ number.Wide) : narrow (.number number) = .ok () := by
  cases number <;> first | rfl | exact absurd trivial small

theorem hear_of_legible {lexeme : Lexeme} {spelling : List Char} (spelled : lexeme.Spelled spelling)
    (legible : Legible lexeme) : ∃ token, hear lexeme = .ok token ∧
      ((∀ literal, lexeme = .number literal → ∀ n ∈ integer? literal, FitsIn 64 n) → narrow token = .ok ()) := by
  cases spelled with
  | string inside =>
    obtain ⟨text, rfl⟩ := legible
    exact ⟨.string (String.ofList text), by rw [hear, textOf_units]; rfl, fun _ => rfl⟩
  | number proper =>
    obtain ⟨found, same⟩ | ⟨value, same⟩ := numberOf_cases proper
    · obtain ⟨number, read, small⟩ := integer_of_fits (legible _ found)
      refine ⟨.number number, by rw [hear, same, read]; rfl, fun fits => narrow_number (small (fits _ rfl _ found))⟩
    · exact ⟨.number (.decimal value), by rw [hear, same]; rfl, fun _ => rfl⟩
  | _ => exact ⟨_, rfl, fun _ => rfl⟩

theorem legible_of_each {row : List Lexeme} (each : ∀ lexeme ∈ row, ∃ token, hear lexeme = .ok token) :
    legible row = .ok () := by
  induction row with
  | nil => rfl
  | cons lexeme row ih =>
    obtain ⟨⟨token, heard⟩, others⟩ := List.forall_mem_cons.mp each
    rw [legible, heard]
    exact ih others

/-- The lexemes of a JSON text have their spellings. -/
def Spelled (value : Value) : Prop := ∀ lexeme ∈ value.lexemes, ∃ spelling, lexeme.Spelled spelling

theorem lexemes_of_member {all : List (List Nat × Value)} {member : List Nat × Value} (inside : member ∈ all)
    (first : Bool) : member.2.lexemes ⊆ memberLexemes first all := by
  induction all generalizing first with
  | nil => contradiction
  | cons other all ih =>
    intro lexeme listed
    simp only [memberLexemes, List.mem_append, List.mem_cons]
    rcases List.mem_cons.mp inside with rfl | inside
    · exact .inr (.inr (.inr (.inl listed)))
    · exact .inr (.inr (.inr (.inr (ih inside false listed))))

theorem lexemes_of_item {items : List Value} {item : Value} (inside : item ∈ items) (first : Bool) :
    item.lexemes ⊆ itemLexemes first items := by
  induction items generalizing first with
  | nil => contradiction
  | cons other items ih =>
    intro lexeme listed
    simp only [itemLexemes, List.mem_append]
    rcases List.mem_cons.mp inside with rfl | inside
    · exact .inr (.inl listed)
    · exact .inr (.inr (ih inside false listed))

theorem Spelled.member {all : List (List Nat × Value)} (spelled : Spelled (.object all)) {member : List Nat × Value}
    (inside : member ∈ all) : Spelled member.2 := by
  intro lexeme listed
  exact spelled lexeme (by simp [Value.lexemes, lexemes_of_member inside true listed])

theorem key_of_member {all : List (List Nat × Value)} {member : List Nat × Value} (inside : member ∈ all)
    (first : Bool) : .string member.1 ∈ memberLexemes first all := by
  induction all generalizing first with
  | nil => contradiction
  | cons other all ih =>
    simp only [memberLexemes, List.mem_append, List.mem_cons]
    rcases List.mem_cons.mp inside with rfl | inside
    · exact .inr (.inl rfl)
    · exact .inr (.inr (.inr (.inr (ih inside false))))

theorem Spelled.key {all : List (List Nat × Value)} (spelled : Spelled (.object all)) {member : List Nat × Value}
    (inside : member ∈ all) : ∃ spelling, (Lexeme.string member.1).Spelled spelling :=
  spelled (.string member.1) (by simp [Value.lexemes, key_of_member inside true])

theorem Spelled.item {items : List Value} (spelled : Spelled (.list items)) {item : Value} (inside : item ∈ items) :
    Spelled item := by
  intro lexeme listed
  exact spelled lexeme (by simp [Value.lexemes, lexemes_of_item inside true listed])

theorem spelled_of_denotes {text : String} {value : Value} (denotes : Denotes text value) : Spelled value := by
  have each {text : List Char} {row : List Lexeme} (lexed : Lexed text row) :
      ∀ lexeme ∈ row, ∃ spelling, lexeme.Spelled spelling := by
    induction lexed with
    | nil => simp
    | blank _ _ ih => exact ih
    | cons spelled _ ih => exact List.forall_mem_cons.mpr ⟨⟨_, spelled⟩, ih⟩
  exact each denotes

theorem passing_of_ignorable {value : Value} (spelled : Spelled value) (ignorable : Ignorable value) :
    passing value = .ok () := by
  have each : ∀ lexeme ∈ value.lexemes, ∃ token, hear lexeme = .ok token := by
    intro lexeme inside
    obtain ⟨spelling, spelled⟩ := spelled lexeme inside
    obtain ⟨token, heard, _⟩ := hear_of_legible spelled (ignorable.legible lexeme inside)
    exact ⟨token, heard⟩
  cases value with
  | list items => exact legible_of_each fun lexeme inside => each lexeme (by simp [Value.lexemes, inside])
  | object members => exact legible_of_each fun lexeme inside => each lexeme (by simp [Value.lexemes, inside])
  | null => rfl
  | boolean => rfl
  | string units =>
    obtain ⟨spelling, spelled⟩ := spelled (.string units) (.head _)
    obtain ⟨token, heard, narrow⟩ := hear_of_legible spelled (ignorable.legible _ (.head _))
    show (stopping (hear (.string units)) >>= _) = _
    rw [heard]
    exact narrow (by simp)
  | number literal =>
    obtain ⟨spelling, spelled⟩ := spelled (.number literal) (.head _)
    obtain ⟨token, heard, narrow⟩ := hear_of_legible spelled (ignorable.legible _ (.head _))
    show (stopping (hear (.number literal)) >>= _) = _
    rw [heard]
    apply narrow
    rintro _ ⟨⟩
    exact ignorable.narrow literal rfl

end GrammarCheck.RegistryFile
