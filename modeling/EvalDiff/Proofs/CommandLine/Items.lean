import EvalDiff.Proofs.CommandLine.Paths
import Mathlib.Data.List.Chain
import Mathlib.Data.List.TakeWhile

/-!
# What a command line says

A command line says a sequence of items, each of which can be written in several ways.  `Spelled`
is the grammar of accepted command lines that ask for neither help nor the version.  How items
are written does not matter: taking the arguments is taking the items one by one.
-/

namespace EvalDiff
namespace CommandLine

/-- One thing that a command line says, other than a request for help or for the version. -/
inductive Item where
  | path (path : String)
  | value (key : Key) (value : String)
  | strict (on : Bool)
  | failOnWorse
deriving DecidableEq, Repr

def strictSwitch : Bool → Switch
  | true => .strict
  | false => .noStrict

/-- The ways to write an item.  Directly behind a letter a value starts with no equals sign, which
would be dropped. -/
inductive Writes : Item → List String → Prop where
  | path {path : String} (h : isValue path = true) : Writes (.path path) [path]
  | strict (on : Bool) : Writes (.strict on) ["--" ++ (strictSwitch on).name]
  | failOnWorse : Writes .failOnWorse ["--" ++ Switch.failOnWorse.name]
  | name {key : Key} {value : String} (h : isValue value = true) :
    Writes (.value key value) ["--" ++ key.name, value]
  | nameEquals (key : Key) (value : String) :
    Writes (.value key value) ["--" ++ key.name ++ "=" ++ value]
  | letter {key : Key} {c : Char} {value : String} (hc : Key.ofLetter? c = some key)
    (h : isValue value = true) : Writes (.value key value) [String.ofList ['-', c], value]
  | letterEquals {key : Key} {c : Char} (hc : Key.ofLetter? c = some key) (value : String) :
    Writes (.value key value) [String.ofList ('-' :: c :: '=' :: value.toList)]
  | letterValue {key : Key} {c d : Char} {ds : List Char} (hc : Key.ofLetter? c = some key)
    (hd : d ≠ '=') :
    Writes (.value key (String.ofList (d :: ds))) [String.ofList ('-' :: c :: d :: ds)]

/-- The command lines that say a sequence of items.  Behind two dashes alone all arguments are
paths, with or without a dash at the front. -/
inductive Spelled : List Item → List String → Prop where
  | nil : Spelled [] []
  | paths (paths : List String) : Spelled (paths.map Item.path) ("--" :: paths)
  | cons {item : Item} {items : List Item} {words arguments : List String}
    (h : Writes item words) (hrest : Spelled items arguments) :
    Spelled (item :: items) (words ++ arguments)

/-- Takes an item. -/
def Draft.add (d : Draft) : Item → Except UsageFault Draft
  | .path path => d.addPath path
  | .value key value => d.setKey key value
  | .strict on => d.setStrict (strictSwitch on) on
  | .failOnWorse =>
    if d.failOnWorse then .error (.repeatedSwitch .failOnWorse)
    else .ok { d with failOnWorse := true }

variable {d d' : Draft} {key : Key} {switch : Switch} {item : Item} {items : List Item}
  {argument value name : String} {words arguments rest : List String} {cs : List Char}
  {progress : Progress} {waiting : Option Key} {i : Invocation}

/-! ### Names and letters -/

theorem Key.ofName?_eq_some_iff : Key.ofName? name = some key ↔ key.name = name := by
  constructor
  · intro h
    simpa using List.find?_some h
  · rintro rfl
    cases key <;> rfl

theorem Switch.ofName?_eq_some_iff : Switch.ofName? name = some switch ↔ switch.name = name := by
  constructor
  · intro h
    simpa using List.find?_some h
  · rintro rfl
    cases switch <;> rfl

theorem Key.ofName?_switch (switch : Switch) : Key.ofName? switch.name = none := by
  cases switch <;> rfl

theorem Key.ne_equals (key : Key) : ∀ c ∈ key.name.toList, (c != '=') = true := by
  have hall : key.name.toList.all (· != '=') = true := by cases key <;> decide
  exact List.all_eq_true.mp hall

theorem Switch.ne_equals (switch : Switch) : ∀ c ∈ switch.name.toList, (c != '=') = true := by
  have hall : switch.name.toList.all (· != '=') = true := by cases switch <;> decide
  exact List.all_eq_true.mp hall

/-- No option has a dash as its letter. -/
theorem Key.ne_dash {c : Char} (h : Key.ofLetter? c = some key) : c ≠ '-' := by
  rintro rfl
  cases h

/-- The switches with a letter ask for help and for the version. -/
theorem Switch.eq_of_ofLetter? {c : Char} (h : Switch.ofLetter? c = some switch) :
    switch = .help ∨ switch = .version := by
  unfold Switch.ofLetter? at h
  split at h
  · exact Or.inl (Option.some.inj h).symm
  · exact Or.inr (Option.some.inj h).symm
  · cases h

/-! ### Arguments by their first characters -/

theorem take_long (d : Draft) (h : argument.toList = '-' :: '-' :: cs) :
    take d argument = takeLong d argument cs := by
  rw [take, h]
  rfl

theorem take_short (d : Draft) {c : Char} (h : argument.toList = '-' :: c :: cs) (hc : c ≠ '-') :
    take d argument = takeShort d argument (c :: cs) := by
  rw [take, h]
  split
  · next heq =>
    cases heq
    exact absurd rfl hc
  · next heq =>
    cases heq
    rfl
  · next _ hother => exact absurd rfl (hother c cs)

theorem return_more (added : Except UsageFault Draft) :
    (do return Progress.more (← added) none) = added.map (Progress.more · none) := by
  cases added <;> rfl

theorem isValue_iff :
    isValue argument = true ↔ argument = "-" ∨ argument.toList.head? ≠ some '-' := by
  simp [isValue]

theorem take_path (d : Draft) (h : isValue argument = true) :
    take d argument = (d.addPath argument).map (Progress.more · none) := by
  rw [← return_more]
  rcases isValue_iff.mp h with rfl | hhead
  · rfl
  · rw [take]
    split
    · next heq => simp [heq] at hhead
    · next heq => simp [heq] at hhead
    · rfl

theorem takeWhile_name {name : List Char} (h : ∀ c ∈ name, (c != '=') = true) (value : List Char) :
    (name ++ '=' :: value).takeWhile (· != '=') = name := by
  rw [List.takeWhile_append_of_pos h]
  simp

theorem dropWhile_name {name : List Char} (h : ∀ c ∈ name, (c != '=') = true) (value : List Char) :
    (name ++ '=' :: value).dropWhile (· != '=') = '=' :: value := by
  rw [List.dropWhile_append_of_pos h]
  simp

theorem takeLong_nameEquals (d : Draft) (argument : String) (key : Key) (value : List Char) :
    takeLong d argument (key.name.toList ++ '=' :: value) =
      (d.setKey key (String.ofList value)).map (Progress.more · none) := by
  have hkey : Key.ofName? (String.ofList key.name.toList) = some key := by
    rw [String.ofList_toList, Key.ofName?_eq_some_iff]
  rw [takeLong, takeWhile_name key.ne_equals, dropWhile_name key.ne_equals, hkey, ← return_more]
  rfl

theorem takeLong_name (d : Draft) (argument : String) (key : Key) :
    takeLong d argument key.name.toList = .ok (.more d (some key)) := by
  have hkey : Key.ofName? (String.ofList key.name.toList) = some key := by
    rw [String.ofList_toList, Key.ofName?_eq_some_iff]
  rw [takeLong, List.takeWhile_eq_self_iff.mpr key.ne_equals,
    List.dropWhile_eq_nil_iff.mpr key.ne_equals, hkey]
  rfl

theorem takeLong_switch (d : Draft) (argument : String) (switch : Switch) :
    takeLong d argument switch.name.toList = takeSwitch d switch := by
  have hkey : Key.ofName? (String.ofList switch.name.toList) = none := by
    rw [String.ofList_toList, Key.ofName?_switch]
  have hswitch : Switch.ofName? (String.ofList switch.name.toList) = some switch := by
    rw [String.ofList_toList, Switch.ofName?_eq_some_iff]
  rw [takeLong, List.takeWhile_eq_self_iff.mpr switch.ne_equals,
    List.dropWhile_eq_nil_iff.mpr switch.ne_equals, hkey, hswitch]
  rfl

theorem takeShort_letter (d : Draft) (argument : String) {c : Char}
    (hc : Key.ofLetter? c = some key) : takeShort d argument [c] = .ok (.more d (some key)) := by
  rw [takeShort, hc]

theorem takeShort_letterEquals (d : Draft) (argument : String) {c : Char}
    (hc : Key.ofLetter? c = some key) (value : List Char) :
    takeShort d argument (c :: '=' :: value) =
      (d.setKey key (String.ofList value)).map (Progress.more · none) := by
  rw [takeShort, hc, ← return_more]
  rfl

theorem takeShort_letterValue (d : Draft) (argument : String) {c c' : Char}
    (hc : Key.ofLetter? c = some key) (hc' : c' ≠ '=') (cs : List Char) :
    takeShort d argument (c :: c' :: cs) =
      (d.setKey key (String.ofList (c' :: cs))).map (Progress.more · none) := by
  rw [← return_more]
  simp only [takeShort, hc]
  split
  · next heq => cases heq
  · next heq =>
    cases heq
    exact absurd rfl hc'
  · rfl

/-! ### Taking items -/

theorem takeAll_of_take {added : Except UsageFault Draft} (hne : argument ≠ "--")
    (htake : take d argument = added.map (Progress.more · none)) (rest : List String) :
    takeAll d none (argument :: rest) = added >>= fun d => takeAll d none rest := by
  rw [takeAll, if_neg hne, htake]
  cases added <;> rfl

theorem takeAll_of_wait (hne : argument ≠ "--")
    (htake : take d argument = .ok (.more d (some key))) (hvalue : isValue value = true)
    (rest : List String) :
    takeAll d none (argument :: value :: rest) =
      d.setKey key value >>= fun d => takeAll d none rest := by
  rw [takeAll, if_neg hne, htake]
  show takeAll d (some key) (value :: rest) = _
  rw [takeAll, if_pos hvalue]

theorem ne_dashes (h : argument.toList ≠ ['-', '-']) : argument ≠ "--" := by
  rintro rfl
  exact h rfl

theorem takeAll_words (d : Draft) (h : Writes item words) (rest : List String) :
    takeAll d none (words ++ rest) = d.add item >>= fun d => takeAll d none rest := by
  cases h with
  | path hvalue =>
    refine takeAll_of_take ?_ (take_path d hvalue) rest
    rintro rfl
    cases hvalue
  | strict on =>
    have hchars : ("--" ++ (strictSwitch on).name).toList =
        '-' :: '-' :: (strictSwitch on).name.toList := by simp
    refine takeAll_of_take ?_ ?_ rest
    · cases on <;> decide
    · rw [take_long d hchars, takeLong_switch]
      cases on <;> rfl
  | failOnWorse =>
    refine takeAll_of_take (by decide) ?_ rest
    have hchars : ("--" ++ Switch.failOnWorse.name).toList =
        '-' :: '-' :: Switch.failOnWorse.name.toList := by simp
    rw [take_long d hchars, takeLong_switch]
    show (if d.failOnWorse then _ else _) = Except.map _ (if d.failOnWorse then _ else _)
    cases d.failOnWorse <;> rfl
  | @name key _ hvalue =>
    have hchars : ("--" ++ key.name).toList = '-' :: '-' :: key.name.toList := by simp
    refine takeAll_of_wait ?_ ?_ hvalue rest
    · cases key <;> decide
    · rw [take_long d hchars, takeLong_name]
  | nameEquals key value =>
    have hchars : ("--" ++ key.name ++ "=" ++ value).toList =
        '-' :: '-' :: (key.name.toList ++ '=' :: value.toList) := by simp
    refine takeAll_of_take (ne_dashes ?_) ?_ rest
    · rw [hchars]
      simp
    · rw [take_long d hchars, takeLong_nameEquals, String.ofList_toList]
      rfl
  | @letter _ c _ hc hvalue =>
    have hchars : (String.ofList ['-', c]).toList = ['-', c] := by simp
    refine takeAll_of_wait (ne_dashes ?_) ?_ hvalue rest
    · simpa using Key.ne_dash hc
    · rw [take_short d hchars (Key.ne_dash hc), takeShort_letter d _ hc]
  | @letterEquals _ c hc value =>
    have hchars : (String.ofList ('-' :: c :: '=' :: value.toList)).toList =
        '-' :: c :: '=' :: value.toList := by simp
    refine takeAll_of_take (ne_dashes (by simp)) ?_ rest
    rw [take_short d hchars (Key.ne_dash hc), takeShort_letterEquals d _ hc, String.ofList_toList]
    rfl
  | @letterValue _ c c' cs hc hc' =>
    have hchars : (String.ofList ('-' :: c :: c' :: cs)).toList = '-' :: c :: c' :: cs := by simp
    refine takeAll_of_take (ne_dashes (by simp)) ?_ rest
    rw [take_short d hchars (Key.ne_dash hc), takeShort_letterValue d _ hc hc']
    rfl

/-- How items are written does not matter. -/
theorem takeAll_of_spelled (h : Spelled items arguments) (d : Draft) :
    takeAll d none arguments = items.foldlM Draft.add d >>= Draft.finish := by
  induction h generalizing d with
  | nil => rfl
  | paths paths =>
    rw [takeAll, if_pos rfl, List.foldlM_map]
    rfl
  | cons hword hrest ih =>
    rw [takeAll_words d hword, List.foldlM_cons, bind_assoc]
    exact bind_congr ih

/-! ### Accepted arguments in the grammar -/

/-- The ways to read an argument that is taken: as a request, as an item, or as an option that
waits for its value. -/
inductive Reads (argument : String) : Progress → Prop where
  | help : Reads argument (.settled .help)
  | version : Reads argument (.settled .version)
  | item {item : Item} {d : Draft} (h : Writes item [argument]) : Reads argument (.more d none)
  | waits {d : Draft} {key : Key}
    (h : ∀ value, isValue value = true → Writes (.value key value) [argument, value]) :
    Reads argument (.more d (some key))

theorem reads_of_takeSwitch (h : takeSwitch d switch = .ok progress)
    (hargument : argument = "--" ++ switch.name) : Reads argument progress := by
  subst hargument
  cases switch with
  | help =>
    cases h
    exact .help
  | version =>
    cases h
    exact .version
  | strict =>
    obtain ⟨_, -, hprogress⟩ := bind_eq_ok_iff.mp h
    cases hprogress
    exact .item (.strict true)
  | noStrict =>
    obtain ⟨_, -, hprogress⟩ := bind_eq_ok_iff.mp h
    cases hprogress
    exact .item (.strict false)
  | failOnWorse =>
    unfold takeSwitch at h
    simp only at h
    split at h
    · cases h
    · cases h
      exact .item .failOnWorse

theorem eq_of_value?_some
    (h : (cs.dropWhile (· != '=')).tail?.map String.ofList = some value) :
    cs = cs.takeWhile (· != '=') ++ '=' :: value.toList := by
  have hsplit := (List.takeWhile_append_dropWhile (p := (· != '=')) (l := cs)).symm
  cases hdrop : cs.dropWhile (· != '=') with
  | nil => simp [hdrop] at h
  | cons c rest =>
    have hc := List.head?_dropWhile_not (· != '=') cs
    rw [hdrop] at h hsplit hc
    cases h
    have hequals : c = '=' := by simpa using hc
    rw [hequals] at hsplit
    simpa using hsplit

theorem eq_of_value?_none (h : (cs.dropWhile (· != '=')).tail?.map String.ofList = none) :
    cs = cs.takeWhile (· != '=') := by
  have hdrop : cs.dropWhile (· != '=') = [] := by
    cases hdrop : cs.dropWhile (· != '=') with
    | nil => rfl
    | cons c rest => simp [hdrop] at h
  have hsplit := List.takeWhile_append_dropWhile (p := (· != '=')) (l := cs)
  rw [hdrop, List.append_nil] at hsplit
  exact hsplit.symm

theorem reads_of_takeLong (h : takeLong d argument cs = .ok progress)
    (hchars : argument.toList = '-' :: '-' :: cs) : Reads argument progress := by
  unfold takeLong at h
  simp only at h
  split at h
  · next key value hkey hvalue =>
    obtain ⟨_, -, hprogress⟩ := bind_eq_ok_iff.mp h
    cases hprogress
    have hargument : argument = "--" ++ key.name ++ "=" ++ value := by
      rw [← String.toList_inj, hchars, eq_of_value?_some hvalue, Key.ofName?_eq_some_iff.mp hkey]
      simp
    rw [hargument]
    exact .item (.nameEquals key value)
  · next key hkey hvalue =>
    cases h
    have hargument : argument = "--" ++ key.name := by
      rw [← String.toList_inj, hchars, eq_of_value?_none hvalue, Key.ofName?_eq_some_iff.mp hkey]
      simp
    rw [hargument]
    exact .waits fun value hisValue => .name hisValue
  · next switch _ hswitch hvalue =>
    refine reads_of_takeSwitch h ?_
    rw [← String.toList_inj, hchars, eq_of_value?_none hvalue,
      Switch.ofName?_eq_some_iff.mp hswitch]
    simp
  · cases h
  · cases h

theorem reads_of_takeShort {c : Char} (h : takeShort d argument (c :: cs) = .ok progress)
    (hchars : argument.toList = '-' :: c :: cs) : Reads argument progress := by
  have hargument : argument = String.ofList ('-' :: c :: cs) := by
    rw [← hchars, String.ofList_toList]
  unfold takeShort at h
  split at h
  · next key hkey =>
    subst hargument
    split at h
    · cases h
      exact .waits fun value hvalue => .letter hkey hvalue
    · next value =>
      obtain ⟨_, -, hprogress⟩ := bind_eq_ok_iff.mp h
      cases hprogress
      have hitem := Writes.letterEquals hkey (String.ofList value)
      rw [String.toList_ofList] at hitem
      exact .item hitem
    · next hnil hequals =>
      obtain ⟨_, -, hprogress⟩ := bind_eq_ok_iff.mp h
      cases hprogress
      cases cs with
      | nil => exact absurd rfl hnil
      | cons c' cs =>
        refine .item (.letterValue hkey ?_)
        rintro rfl
        exact hequals cs rfl
  · next switch _ hswitch =>
    obtain ⟨next, hnext, h⟩ := bind_eq_ok_iff.mp h
    rcases Switch.eq_of_ofLetter? hswitch with rfl | rfl
    · cases hnext
      cases h
      exact .help
    · cases hnext
      cases h
      exact .version
  · cases h

theorem reads_of_take (h : take d argument = .ok progress) : Reads argument progress := by
  unfold take at h
  split at h
  · next cs hchars => exact reads_of_takeLong h hchars
  · next c cs hchars => exact reads_of_takeShort h hchars
  · next _ hshort =>
    obtain ⟨_, -, hprogress⟩ := bind_eq_ok_iff.mp h
    cases hprogress
    refine .item (.path (isValue_iff.mpr ?_))
    match hchars : argument.toList with
    | [] => exact Or.inr nofun
    | [c] =>
      by_cases hc : c = '-'
      · subst hc
        exact Or.inl (String.toList_inj.mp hchars)
      · exact Or.inr (by simpa using hc)
    | c :: c' :: cs =>
      refine Or.inr fun hhead => ?_
      cases hhead
      exact hshort c' cs hchars

-- The recursion is on the arguments, as an option that waits takes two of them at once.
theorem spelled_of_takeAll (d : Draft) (arguments : List String)
    (h : takeAll d none arguments = .ok (.run i)) : ∃ items, Spelled items arguments := by
  cases arguments with
  | nil => exact ⟨[], .nil⟩
  | cons argument rest =>
    unfold takeAll at h
    split at h
    · next hdashes =>
      subst hdashes
      exact ⟨rest.map Item.path, .paths rest⟩
    · next hdashes =>
      obtain ⟨progress, htake, h⟩ := bind_eq_ok_iff.mp h
      cases reads_of_take htake with
      | help => cases h
      | version => cases h
      | @item item d' hword =>
        obtain ⟨items, hitems⟩ := spelled_of_takeAll d' rest h
        exact ⟨item :: items, .cons hword hitems⟩
      | @waits d' key hword =>
        cases rest with
        | nil => cases h
        | cons value rest =>
          simp only [takeAll] at h
          split at h
          · next hvalue =>
            obtain ⟨d'', -, h⟩ := bind_eq_ok_iff.mp h
            obtain ⟨items, hitems⟩ := spelled_of_takeAll d'' rest h
            exact ⟨.value key value :: items, .cons (hword value hvalue) hitems⟩
          · cases h

/-- Every accepted command line that asks for neither help nor the version is in the grammar. -/
theorem spelled_of_parse (h : parse arguments = .ok (.run i)) :
    ∃ items, Spelled items arguments :=
  spelled_of_takeAll {} arguments h

end CommandLine
end EvalDiff
