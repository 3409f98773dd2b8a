import GrammarCheck.CommandLine.Arguments

/-! What a list of arguments sets. Options stand one after the other, and what comes after the last of
them decides: with nothing or a final `--` the arguments are read, an empty argument stops the program,
and anything else makes them unusable. -/
namespace GrammarCheck.Arguments

/-- The options at the front of a list set `settings`, and the last list is what comes after them. -/
inductive Sets : List String → List (Key × String) → List String → Prop
  | done (rest : List String) : Sets rest [] rest
  | flag {argument : String} {value : Option String} {rest after : List String}
      {settings : List (Key × String)} (read : option? argument.toList = some (.quiet, value))
      (tail : Sets rest settings after) : Sets (argument :: rest) ((.quiet, "") :: settings) after
  | joined {argument value : String} {key : Key} {rest after : List String}
      {settings : List (Key × String)} (valued : key ≠ .quiet)
      (read : option? argument.toList = some (key, some value)) (tail : Sets rest settings after) :
      Sets (argument :: rest) ((key, value) :: settings) after
  | apart {argument value : String} {key : Key} {rest after : List String}
      {settings : List (Key × String)} (valued : key ≠ .quiet)
      (read : option? argument.toList = some (key, .none)) (tail : Sets rest settings after) :
      Sets (argument :: value :: rest) ((key, value) :: settings) after

/-- No option stands where one is due: an argument of another kind, an option whose value is missing, or
a `--` that is not the last argument. -/
inductive Misplaced : List String → Prop
  | foreign {argument : String} {rest : List String} (filled : argument ≠ "") (other : argument ≠ "--")
      (unread : option? argument.toList = .none) : Misplaced (argument :: rest)
  | valueless {argument : String} {key : Key} (valued : key ≠ .quiet)
      (read : option? argument.toList = some (key, .none)) : Misplaced [argument]
  | afterEnd (next : String) (rest : List String) : Misplaced ("--" :: next :: rest)

/-- Sets options from left to right, so that the last setting of an option is the one that counts. -/
def apply (arguments : Arguments) (settings : List (Key × String)) : Arguments :=
  settings.foldl (fun chosen setting => chosen.set setting.2 setting.1) arguments

def Choose (arguments : List String) (chosen : Arguments) : Prop :=
  ∃ settings, (Sets arguments settings [] ∨ Sets arguments settings ["--"]) ∧ chosen = none.apply settings

def MeetEmpty (arguments : List String) : Prop := ∃ settings rest, Sets arguments settings ("" :: rest)

def Unusable (arguments : List String) : Prop :=
  ∃ settings rest, Sets arguments settings rest ∧ Misplaced rest

theorem option?_empty : option? "".toList = .none := rfl

theorem option?_end : option? "--".toList = .none := by decide

theorem filled_of_option? {argument : String} {option : Key × Option String}
    (read : option? argument.toList = some option) : argument ≠ "" ∧ argument ≠ "--" := by
  constructor
  · rintro rfl
    rw [option?_empty] at read
    exact nomatch read
  · rintro rfl
    rw [option?_end] at read
    exact nomatch read

theorem read_of_sets {arguments rest : List String} {settings : List (Key × String)}
    (sets : Sets arguments settings rest) (start : Arguments) :
    read start arguments = read (start.apply settings) rest := by
  induction sets generalizing start with
  | done rest => rfl
  | flag option tail ih =>
    obtain ⟨filled, other⟩ := filled_of_option? option
    rw [read, if_neg filled, if_neg other, option]
    exact ih _
  | @joined argument value key rest after settings valued option tail ih =>
    obtain ⟨filled, other⟩ := filled_of_option? option
    rw [read, if_neg filled, if_neg other, option]
    cases key with
    | quiet => exact absurd rfl valued
    | _ => exact ih _
  | @apart argument value key rest after settings valued option tail ih =>
    obtain ⟨filled, other⟩ := filled_of_option? option
    rw [read, if_neg filled, if_neg other, option]
    cases key with
    | quiet => exact absurd rfl valued
    | _ => exact ih _

theorem read_of_misplaced {arguments : List String} (misplaced : Misplaced arguments) (start : Arguments) :
    read start arguments = .error .unusable := by
  cases misplaced with
  | foreign filled other unread => rw [read, if_neg filled, if_neg other, unread]
  | @valueless argument key valued option =>
    obtain ⟨filled, other⟩ := filled_of_option? option
    rw [read, if_neg filled, if_neg other, option]
    cases key with
    | quiet => exact absurd rfl valued
    | _ => rfl
  | afterEnd next rest => rfl

/-- Reading goes over options to one of four ends. -/
theorem exists_sets (arguments : List String) : ∃ settings rest, Sets arguments settings rest ∧
    (rest = [] ∨ rest = ["--"] ∨ (∃ after, rest = "" :: after) ∨ Misplaced rest) := by
  fun_induction read none arguments with
  | case1 => exact ⟨_, _, .done _, .inl rfl⟩
  | case2 _ rest => exact ⟨_, _, .done _, .inr (.inr (.inl ⟨rest, rfl⟩))⟩
  | case3 _ rest last => exact ⟨_, _, .done _, .inr (.inl (by rw [List.isEmpty_iff.mp last]))⟩
  | case4 _ rest more =>
    cases rest with
    | nil => exact absurd rfl more
    | cons next rest => exact ⟨_, _, .done _, .inr (.inr (.inr (.afterEnd next rest)))⟩
  | case5 _ _ _ filled other unread =>
    exact ⟨_, _, .done _, .inr (.inr (.inr (.foreign filled other unread)))⟩
  | case6 _ _ _ _ _ _ option ih =>
    obtain ⟨settings, rest, sets, ends⟩ := ih
    exact ⟨_, _, .flag option sets, ends⟩
  | case7 _ _ _ _ _ _ _ valued option ih =>
    obtain ⟨settings, rest, sets, ends⟩ := ih
    exact ⟨_, _, .joined valued option sets, ends⟩
  | case8 _ _ _ _ _ valued option => exact ⟨_, _, .done _, .inr (.inr (.inr (.valueless valued option)))⟩
  | case9 _ _ _ _ _ valued option _ _ ih =>
    obtain ⟨settings, rest, sets, ends⟩ := ih
    exact ⟨_, _, .apart valued option sets, ends⟩

theorem ofList_of_choose {arguments : List String} {chosen : Arguments} (choose : Choose arguments chosen) :
    ofList arguments = .ok chosen := by
  obtain ⟨settings, whole | closed, rfl⟩ := choose
  · exact read_of_sets whole none
  · exact read_of_sets closed none

theorem ofList_of_meetEmpty {arguments : List String} (met : MeetEmpty arguments) :
    ofList arguments = .error .empty := by
  obtain ⟨settings, rest, sets⟩ := met
  rw [ofList, read_of_sets sets, read, if_pos rfl]

theorem ofList_of_unusable {arguments : List String} (unusable : Unusable arguments) :
    ofList arguments = .error .unusable := by
  obtain ⟨settings, rest, sets, misplaced⟩ := unusable
  rw [ofList, read_of_sets sets, read_of_misplaced misplaced]

/-- Arguments are read, stop the program or are unusable. -/
theorem choose_or (arguments : List String) :
    (∃ chosen, Choose arguments chosen) ∨ MeetEmpty arguments ∨ Unusable arguments := by
  obtain ⟨settings, rest, sets, rfl | rfl | ⟨after, rfl⟩ | misplaced⟩ := exists_sets arguments
  · exact .inl ⟨_, settings, .inl sets, rfl⟩
  · exact .inl ⟨_, settings, .inr sets, rfl⟩
  · exact .inr (.inl ⟨settings, after, sets⟩)
  · exact .inr (.inr ⟨settings, rest, sets, misplaced⟩)

theorem choose_iff_ofList {arguments : List String} {chosen : Arguments} :
    Choose arguments chosen ↔ ofList arguments = .ok chosen := by
  constructor
  · exact ofList_of_choose
  · intro read
    rcases choose_or arguments with ⟨other, choose⟩ | met | unusable
    · cases (ofList_of_choose choose).symm.trans read
      exact choose
    · exact nomatch (ofList_of_meetEmpty met).symm.trans read
    · exact nomatch (ofList_of_unusable unusable).symm.trans read

end GrammarCheck.Arguments
