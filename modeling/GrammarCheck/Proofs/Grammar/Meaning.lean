import GrammarCheck.Grammar.Reading
import GrammarCheck.Proofs.Grammar.RuleMeaning
import GrammarCheck.Proofs.Table

/-! What grammar definitions in JSON mean. Main statement: decoding a text gives the grammar that the
value of the text stands for, and nothing else about the text matters. -/
namespace GrammarCheck.Grammar
open Json (Node Items Members Place Cause Fault Value Denotes textOf? fill)
open Text (units)

abbrev Field.Slot : Field → Type
  | .name => String
  | .rules => Table Rule
  | .extras => Option (List Rule)
  | .externals => Option (List Rule)
  | .inline => Option (List String)
  | .conflicts => Option (List (List String))
  | .word => Option String
  | .supertypes => Option (List String)

def names? (depth : Nat) : Value → Option (List String) := Value.items? (fun _ => Value.text?) depth

/-- A rule with the name that it is given under. -/
def namedRule? (depth : Nat) (member : List Nat × Value) : Option (String × Rule) := do
  let name ← textOf? member.1
  let rule ← Rule.ofValue? depth member.2
  return (name, rule)

def rulesOfValue? : Nat → Value → Option (Table Rule)
  | depth + 1, .object members => (members.mapM (namedRule? depth)).map Table.ofEntries
  | _, _ => none

def field? (depth : Nat) : (field : Field) → Value → Option field.Slot
  | .name => Value.text?
  | .rules => rulesOfValue? depth
  | .extras => Value.optional? (Value.items? Rule.ofValue? depth)
  | .externals => Value.optional? (Value.items? Rule.ofValue? depth)
  | .inline => Value.optional? (names? depth)
  | .conflicts => Value.optional? (Value.items? names? depth)
  | .word => Value.optional? Value.text?
  | .supertypes => Value.optional? (names? depth)

/-- The grammar with these parts. Name and rules have to be given. -/
def ofParts? (parts : (field : Field) → Option field.Slot) : Option Grammar := do
  let name ← parts .name
  let rules ← parts .rules
  return {
    name := name
    rules := rules
    extras := (parts .extras).join
    externals := (parts .externals).join
    inline := (parts .inline).join
    conflicts := (parts .conflicts).join
    word := (parts .word).join
    supertypes := (parts .supertypes).join }

/-- The grammar that a value stands for, if lists and objects in it go no deeper than `depth`. -/
def ofValue? : Nat → Value → Option Grammar
  | 0, _ => none
  | depth + 1, value => do
    let known ← value.fields? Field.ofKey? Field.all
    let parts ← fill (field? depth) (fun _ => none) known
    ofParts? parts

section
variable {node : Node} {value : Value}

theorem toOption_listOfNode (shows : node.Shows value) (depth : Nat) :
    (Rule.listOfNode depth node).toOption = value.items? Rule.ofValue? depth := by
  rw [Rule.toOption_listOfNode (fun below _ => Rule.readsAt below) shows, Rule.listOfValue?_eq_items?]

theorem toOption_names (shows : node.Shows value) (depth : Nat) :
    (names depth node).toOption = names? depth value :=
  shows.values_toOption (fun _ _ _ shows => shows.text_toOption) depth

theorem toOption_rulesOfMembers {members : Members} {values : List (List Nat × Value)} (shows : members.Shows values)
    (depth : Nat) (rules : Table Rule) : (rulesOfMembers depth rules members).toOption =
      (values.mapM (namedRule? depth)).map fun entries =>
        entries.foldl (fun table entry => table.insert entry.1 entry.2) rules := by
  induction values generalizing members rules with
  | nil => cases shows; rfl
  | cons value values ih =>
    cases shows with
    | member named first others =>
      rw [rulesOfMembers, Json.toOption_bind, named.text_toOption, List.mapM_cons, namedRule?]
      cases textOf? _ with
      | none => rfl
      | some name =>
        simp only [Option.bind_some, Json.toOption_bind, Rule.readsAt depth _ _ first, ih others]
        cases Rule.ofValue? depth _ with
        | none => rfl
        | some rule => cases values.mapM (namedRule? depth) <;> rfl

theorem toOption_rulesOfNode (shows : node.Shows value) (depth : Nat) :
    (rulesOfNode depth node).toOption = rulesOfValue? depth value := by
  cases shows with
  | scalar single =>
    cases value with
    | object => simp [Value.lexemes] at single
    | _ => cases depth <;> rfl
  | list => cases depth <;> rfl
  | object shown =>
    rw [rulesOfNode, Json.toOption_descend]
    cases depth with
    | zero => rfl
    | succ depth => exact toOption_rulesOfMembers shown depth Table.empty

end

def Draft.part (draft : Draft) : (field : Field) → Option field.Slot
  | .name => draft.name
  | .rules => draft.rules
  | .extras => draft.extras
  | .externals => draft.externals
  | .inline => draft.inline
  | .conflicts => draft.conflicts
  | .word => draft.word
  | .supertypes => draft.supertypes

theorem Draft.part_empty (field : Field) : Draft.empty.part field = none := by
  cases field <;> rfl

theorem Field.nodup_all : Field.all.Nodup := by decide

theorem Field.mem_all (field : Field) : field ∈ Field.all := by
  cases field <;> decide

theorem Draft.has_eq (draft : Draft) (field : Field) : draft.has field = (draft.part field).isSome := by
  cases field <;> rfl

def Draft.set (draft : Draft) : (field : Field) → field.Slot → Draft
  | .name, part => { draft with name := some part }
  | .rules, part => { draft with rules := some part }
  | .extras, part => { draft with extras := some part }
  | .externals, part => { draft with externals := some part }
  | .inline, part => { draft with inline := some part }
  | .conflicts, part => { draft with conflicts := some part }
  | .word, part => { draft with word := some part }
  | .supertypes, part => { draft with supertypes := some part }

theorem Draft.part_set (draft : Draft) (field : Field) (part : field.Slot) :
    (draft.set field part).part = Function.update draft.part field (some part) := by
  funext other
  cases field <;> cases other <;> rfl

theorem puts (depth : Nat) : Json.Puts (field? depth) Draft.part fun draft _ node => draft.put depth node := by
  intro draft _ node value field shows
  have rules := shows.optional_toOption (toOption_listOfNode shows depth)
  have texts := shows.optional_toOption (toOption_names shows depth)
  cases field with
  | name => exact Json.map_view (draft.part_set .name) shows.text_toOption
  | rules => exact Json.map_view (draft.part_set .rules) (toOption_rulesOfNode shows depth)
  | extras => exact Json.map_view (draft.part_set .extras) rules
  | externals => exact Json.map_view (draft.part_set .externals) rules
  | inline => exact Json.map_view (draft.part_set .inline) texts
  | conflicts =>
    exact Json.map_view (draft.part_set .conflicts)
      (shows.optional_toOption (shows.values_toOption (fun depth _ _ shows => toOption_names shows depth) depth))
  | word => exact Json.map_view (draft.part_set .word) (shows.optional_toOption shows.text_toOption)
  | supertypes => exact Json.map_view (draft.part_set .supertypes) texts

theorem Draft.toOption_grammar (draft : Draft) (fault : Field → Fault) :
    (draft.grammar.mapError fault).toOption = ofParts? draft.part := by
  rw [grammar, ofParts?, part, part]
  cases draft.name with
  | none => rfl
  | some name => cases draft.rules <;> rfl

theorem ofMembers_close (depth : Nat) (draft : Draft) (after : Place) :
    (ofMembers depth draft (.close after)).toOption = ofParts? draft.part := by
  rw [ofMembers]
  exact draft.toOption_grammar _

theorem ofItems_close (depth : Nat) (draft : Draft) (fields : List Field) (after : Place) :
    (ofItems depth draft fields (.close after)).toOption = ofParts? draft.part := by
  rw [ofItems]
  exact draft.toOption_grammar _

theorem toOption_ofNode {node : Node} {value : Value} (shows : node.Shows value) (depth : Nat) :
    (ofNode depth node).toOption = ofValue? depth value := by
  cases depth with
  | zero =>
    cases shows with
    | scalar => rfl
    | list => rfl
    | object => rfl
  | succ depth =>
    cases shows with
    | scalar single =>
      cases value with
      | list => simp [Value.lexemes] at single
      | object => simp [Value.lexemes] at single
      | _ => rfl
    | list shown =>
      have filled := Json.items_toOption (puts depth) (ofItems_close depth)
        (fun draft field fields node settled next => by rw [ofItems])
        (fun draft node settled next => by rw [ofItems]; rfl) shown Field.nodup_all fun field _ => Draft.part_empty field
      rw [ofNode, Json.toOption_descend, ofValue?, Value.fields?]
      exact filled.trans (by split <;> simp [funext Draft.part_empty])
    | object shown =>
      have filled := Json.members_toOption Field.ofKey? (fun field colon => (Cause.duplicateField field.key).here colon)
        (puts depth) Draft.has_eq (ofMembers_close depth)
        (fun draft key colon node settled next => by
          rw [ofMembers]
          congr 1
          funext name
          cases Field.ofKey? name with
          | none => rfl
          | some field => rfl) shown Draft.empty
      rw [ofNode, Json.toOption_descend, ofValue?, Value.fields?]
      rwa [funext Draft.part_empty] at filled

theorem toOption_decode {text : String} {value : Value} (denotes : Denotes text value) :
    (decode text).toOption = ofValue? Json.depthLimit value :=
  Json.Document.toOption_read denotes fun _ shows => toOption_ofNode shows Json.depthLimit

theorem namedRule?_eq_some {depth : Nat} {member : List Nat × Value} {name : String} {rule : Rule}
    (text : ∃ key : String, member.1 = units key.toList) : namedRule? depth member = some (name, rule) ↔
      member.1 = units name.toList ∧ Rule.ofValue? depth member.2 = some rule := by
  obtain ⟨_, value⟩ := member
  obtain ⟨key, rfl⟩ := text
  simp [namedRule?, Option.bind_eq_some_iff, Text.units_inj, String.toList_inj, and_comm]

theorem nodup_of_namedRules {members : List (List Nat × Value)} {depth : Nat} {entries : List (String × Rule)}
    (texts : ∀ member ∈ members, ∃ key : String, member.1 = units key.toList) (once : (members.map Prod.fst).Nodup)
    (read : members.map (namedRule? depth) = entries.map some) : (entries.map Prod.fst).Nodup := by
  let key (entry : String × Rule) : List Nat := units entry.1.toList
  have own : ∀ member ∈ members, (namedRule? depth member).map key = some member.1 := by
    intro member inside
    have listed : namedRule? depth member ∈ entries.map some := read ▸ List.mem_map_of_mem inside
    obtain ⟨entry, _, same⟩ := List.mem_map.mp listed
    rw [← same, ((namedRule?_eq_some (texts member inside)).mp same.symm).1]
    rfl
  have keys : (entries.map key).map some = (members.map Prod.fst).map some := by
    calc (entries.map key).map some = (entries.map some).map (Option.map key) := by simp
      _ = members.map fun member => (namedRule? depth member).map key := by rw [← read, List.map_map]; rfl
      _ = (members.map Prod.fst).map some := by rw [List.map_map]; exact List.map_congr_left own
  have distinct : (entries.map key).Nodup :=
    List.map_injective_iff.mpr (fun _ _ => Option.some.inj) keys ▸ once
  refine List.Nodup.of_map (fun name => units name.toList) ?_
  rwa [List.map_map]

/-- A look-up in the rules gives what the member of that name reads as. -/
theorem rulesOfValue?_eq_some {members : List (List Nat × Value)} {depth : Nat} {table : Table Rule}
    (texts : ∀ member ∈ members, ∃ key : String, member.1 = units key.toList) (once : (members.map Prod.fst).Nodup) :
    rulesOfValue? (depth + 1) (.object members) = some table ↔
      (∀ member ∈ members, (Rule.ofValue? depth member.2).isSome = true) ∧
      ∀ name rule, table.get? name = some rule ↔
        ∃ value, (units name.toList, value) ∈ members ∧ Rule.ofValue? depth value = some rule := by
  have known {entries : List (String × Rule)} (read : members.mapM (namedRule? depth) = some entries) :
      (∀ member ∈ members, (Rule.ofValue? depth member.2).isSome = true) ∧
      ∀ name rule, (Table.ofEntries entries).get? name = some rule ↔
        ∃ value, (units name.toList, value) ∈ members ∧ Rule.ofValue? depth value = some rule := by
    have same := Json.mapM_eq_some.mp read
    refine ⟨fun member inside => ?_, fun name rule => ?_⟩
    · have listed : namedRule? depth member ∈ entries.map some := same ▸ List.mem_map_of_mem inside
      obtain ⟨⟨name, rule⟩, _, own⟩ := List.mem_map.mp listed
      obtain ⟨_, meant⟩ := (namedRule?_eq_some (texts member inside)).mp own.symm
      exact Option.isSome_iff_exists.mpr ⟨rule, meant⟩
    · rw [Table.get?_ofEntries (nodup_of_namedRules texts once same)]
      constructor
      · intro found
        have listed : some (name, rule) ∈ members.map (namedRule? depth) := same ▸ List.mem_map_of_mem found
        obtain ⟨⟨_, value⟩, inside, own⟩ := List.mem_map.mp listed
        obtain ⟨rfl, meant⟩ := (namedRule?_eq_some (texts _ inside)).mp own
        exact ⟨value, inside, meant⟩
      · rintro ⟨value, inside, meant⟩
        have own : namedRule? depth (units name.toList, value) = some (name, rule) :=
          (namedRule?_eq_some (texts _ inside)).mpr ⟨rfl, meant⟩
        have listed : some (name, rule) ∈ entries.map some := same ▸ own ▸ List.mem_map_of_mem inside
        simpa using listed
  rw [rulesOfValue?, Option.map_eq_some_iff]
  constructor
  · rintro ⟨entries, read, rfl⟩
    exact known read
  · rintro ⟨readable, look⟩
    obtain ⟨entries, read⟩ : ∃ entries, members.mapM (namedRule? depth) = some entries := by
      refine Json.mapM_of_readable fun member inside => ?_
      obtain ⟨name, key⟩ := texts member inside
      obtain ⟨rule, meant⟩ := Option.isSome_iff_exists.mp (readable member inside)
      exact Option.isSome_iff_exists.mpr ⟨_, (namedRule?_eq_some (texts member inside)).mpr ⟨key, meant⟩⟩
    refine ⟨entries, read, Table.eq_of_get? fun name rule => ?_⟩
    rw [look, (known read).2]

end GrammarCheck.Grammar
