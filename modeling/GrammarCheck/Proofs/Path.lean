import GrammarCheck.Path

/-! Joining paths. Main statement: it is associative, for paths as they are spelled. An absolute path
stays as it is, the empty directory adds nothing, and a slash is put in only where there is none. -/
namespace GrammarCheck.Path

/-- A directory as it stands in front of a relative path. -/
def opened (dir : Path) : String := if dir.endsInSlash then dir.text else dir.text ++ "/"

theorem join_of_absolute {path : Path} (absolute : path.isAbsolute = true) (dir : Path) :
    dir.join path = path := by
  rw [join, absolute]
  rfl

theorem empty_join (path : Path) : join ⟨""⟩ path = path := by
  rw [join, if_pos (by simp)]

theorem join_of_relative {dir path : Path} (filled : dir.text ≠ "") (relative : path.isAbsolute = false) :
    dir.join path = ⟨dir.opened ++ path.text⟩ := by
  have named : dir.text.isEmpty = false := by simpa using filled
  rw [join, relative, named, opened]
  cases dir.endsInSlash <;> rfl

theorem isAbsolute_append {front : String} (filled : front ≠ "") (back : String) :
    isAbsolute ⟨front ++ back⟩ = isAbsolute ⟨front⟩ := by
  obtain ⟨first, rest, spelled⟩ : ∃ first rest, front.toList = first :: rest :=
    List.exists_cons_of_ne_nil (by simpa using filled)
  simp [isAbsolute, spelled]

theorem endsInSlash_append (front : String) {back : String} (filled : back ≠ "") :
    endsInSlash ⟨front ++ back⟩ = endsInSlash ⟨back⟩ := by
  have written : back.toList ≠ [] := by simpa using filled
  simp [endsInSlash, List.getLast?_append, List.getLast?_eq_some_getLast written]

theorem opened_ne_empty (dir : Path) : dir.opened ≠ "" := by
  unfold opened
  split
  · next slash =>
    intro empty
    simp [endsInSlash, empty] at slash
  · simp

theorem isAbsolute_opened_append {dir : Path} (filled : dir.text ≠ "") (back : String) :
    isAbsolute ⟨dir.opened ++ back⟩ = dir.isAbsolute := by
  rw [isAbsolute_append dir.opened_ne_empty, opened]
  split
  · rfl
  · exact isAbsolute_append filled "/"

theorem opened_append (front : String) {back : String} (filled : back ≠ "") :
    opened ⟨front ++ back⟩ = front ++ opened ⟨back⟩ := by
  rw [opened, opened, endsInSlash_append front filled]
  split
  · rfl
  · exact String.append_assoc

theorem opened_opened (dir : Path) : opened ⟨dir.opened⟩ = dir.opened := by
  have slash : endsInSlash ⟨dir.opened⟩ = true := by
    unfold opened
    split
    · next slash => exact slash
    · exact endsInSlash_append dir.text (by simp)
  rw [opened, if_pos slash]

theorem join_assoc (base dir path : Path) : (base.join dir).join path = base.join (dir.join path) := by
  cases restart : path.isAbsolute with
  | true => rw [join_of_absolute restart, join_of_absolute restart, join_of_absolute restart]
  | false =>
    by_cases noBase : base.text = ""
    · obtain ⟨text⟩ := base
      cases noBase
      rw [empty_join, empty_join]
    by_cases noDir : dir.text = ""
    · -- the base gets its slash from the empty directory, and no other from the path
      obtain ⟨text⟩ := dir
      cases noDir
      have slashed : base.join ⟨""⟩ = ⟨base.opened⟩ := by
        rw [join_of_relative noBase (by decide), String.append_empty]
      calc (base.join ⟨""⟩).join path
        _ = ⟨opened ⟨base.opened⟩ ++ path.text⟩ := by
          rw [slashed]
          exact join_of_relative base.opened_ne_empty restart
        _ = base.join (join ⟨""⟩ path) := by
          rw [opened_opened, empty_join, join_of_relative noBase restart]
    have inside := join_of_relative noDir restart
    cases rooted : dir.isAbsolute with
    | true =>
      have still : (dir.join path).isAbsolute = true := by
        rw [inside, isAbsolute_opened_append noDir, rooted]
      rw [join_of_absolute rooted, join_of_absolute still]
    | false =>
      have still : (dir.join path).isAbsolute = false := by
        rw [inside, isAbsolute_opened_append noDir, rooted]
      have filled : base.opened ++ dir.text ≠ "" := by simp [noDir]
      rw [join_of_relative noBase rooted, join_of_relative filled restart, join_of_relative noBase still, inside,
        opened_append base.opened noDir, String.append_assoc]

end GrammarCheck.Path
