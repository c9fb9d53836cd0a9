import EvalDiff.Proofs.CommandLine.Items
import EvalDiff.Proofs.Lists

/-!
# Which command lines are accepted

Two paths, at most one value for each option, and no switch of strict mode directly behind an
equal one.  Nothing else matters: not the order of the items, and not how they are written.
-/

namespace EvalDiff

namespace Report.Format

theorem ofName?_eq_some_iff {f : Format} {name : String} :
    ofName? name = some f ↔ f.name = name := by
  constructor
  · intro h
    simpa using List.find?_some h
  · rintro rfl
    exact ofName?_name f

theorem name_injective : Function.Injective name := by
  intro f g h
  exact Option.some.inj ((ofName?_name f).symm.trans (ofName?_eq_some_iff.mpr h.symm))

end Report.Format

namespace CommandLine

/-! ### What items say about one thing -/

@[simp] def Item.path? : Item → Option String
  | .path p => some p
  | _ => none

/-- The value an item gives to an option. -/
@[simp] def Item.value? (key : Key) : Item → Option String
  | .value k v => if k = key then some v else none
  | _ => none

@[simp] def Item.strict? : Item → Option Bool
  | .strict on => some on
  | _ => none

def pathsOf (items : List Item) : List String := items.filterMap Item.path?

def valuesOf (key : Key) (items : List Item) : List String := items.filterMap (Item.value? key)

/-- The switches of strict mode in their order. -/
def strictnessOf (items : List Item) : List Bool := items.filterMap Item.strict?

/-- Which values an option can have. -/
def Key.Admits : Key → String → Prop
  | .metric, _ | .aggregate, _ => True
  | .format, value => ∃ format : Report.Format, format.name = value
  | .config, value | .saveConfig, value => value ≠ ""

/-- The value of an option, if it has one. -/
def Draft.stored (d : Draft) : Key → List String
  | .metric => d.metric.toList
  | .aggregate => d.aggregate.toList
  | .format => d.format.toList.map Report.Format.name
  | .config => d.config.toList
  | .saveConfig => d.saveConfig.toList

/-- The items lead from the draft `d` to the draft `d'`. -/
structure Draft.Leads (d : Draft) (items : List Item) (d' : Draft) : Prop where
  paths : d'.paths = d.paths ++ pathsOf items
  at_most_two : d'.paths.length ≤ 2
  nonempty : "" ∉ pathsOf items
  values : ∀ key, d'.stored key = d.stored key ++ valuesOf key items
  admitted : ∀ key, ∀ value ∈ valuesOf key items, key.Admits value
  failOnWorse : d'.failOnWorse.toNat = d.failOnWorse.toNat + items.count .failOnWorse
  alternate : (d.strict.toList ++ strictnessOf items).IsChain (· ≠ ·)
  strict : d'.strict = (d.strict.toList ++ strictnessOf items).getLast?

variable {d d' d₁ : Draft} {key : Key} {switch : Switch} {item : Item} {items : List Item}
  {path value : String} {on : Bool} {arguments : List String} {i : Invocation}

@[simp] theorem pathsOf_nil : pathsOf [] = [] := rfl

@[simp] theorem pathsOf_cons (item : Item) (items : List Item) :
    pathsOf (item :: items) = item.path?.toList ++ pathsOf items :=
  filterMap_cons_toList Item.path? item items

@[simp] theorem valuesOf_nil (key : Key) : valuesOf key [] = [] := rfl

@[simp] theorem valuesOf_cons (key : Key) (item : Item) (items : List Item) :
    valuesOf key (item :: items) = (item.value? key).toList ++ valuesOf key items :=
  filterMap_cons_toList (Item.value? key) item items

@[simp] theorem strictnessOf_nil : strictnessOf [] = [] := rfl

@[simp] theorem strictnessOf_cons (item : Item) (items : List Item) :
    strictnessOf (item :: items) = item.strict?.toList ++ strictnessOf items :=
  filterMap_cons_toList Item.strict? item items

/-! ### One item -/

theorem Draft.leads_value (hpaths : d.paths.length ≤ 2) (hadmits : key.Admits value)
    (hd' : d'.paths = d.paths ∧ d'.strict = d.strict ∧ d'.failOnWorse = d.failOnWorse)
    (hkey : d'.stored key = d.stored key ++ [value])
    (hother : ∀ other, key ≠ other → d'.stored other = d.stored other) :
    d.Leads [.value key value] d' where
  paths := by simp [hd'.1]
  at_most_two := by rwa [hd'.1]
  nonempty := by simp
  values other := by
    by_cases h : key = other
    · subst h
      simpa using hkey
    · simpa [h] using hother other h
  admitted other v hv := by
    by_cases h : key = other
    · subst h
      have hvalue : v = value := by simpa using hv
      rwa [hvalue]
    · simp [h] at hv
  failOnWorse := by simp [hd'.2.2]
  alternate := by cases d.strict <;> simp
  strict := by cases hstrict : d.strict <;> simp [hd'.2.1, hstrict]

theorem Draft.leads_of_setKey (hpaths : d.paths.length ≤ 2) (h : d.setKey key value = .ok d') :
    d.Leads [.value key value] d' := by
  cases key with
  | metric | aggregate =>
    obtain ⟨_, honce, hd⟩ := bind_eq_ok_iff.mp h
    cases hd
    obtain ⟨hold, rfl⟩ := once_eq_ok_iff.mp honce
    refine leads_value hpaths trivial ⟨rfl, rfl, rfl⟩ (by simp [Draft.stored, hold]) ?_
    intro other hother
    cases other <;> first | rfl | exact absurd rfl hother
  | format =>
    unfold Draft.setKey at h
    simp only at h
    split at h
    · cases h
    · next format hformat =>
      obtain ⟨_, honce, hd⟩ := bind_eq_ok_iff.mp h
      cases hd
      obtain ⟨hold, rfl⟩ := once_eq_ok_iff.mp honce
      have hname : format.name = value := Report.Format.ofName?_eq_some_iff.mp hformat
      refine leads_value hpaths ⟨format, hname⟩ ⟨rfl, rfl, rfl⟩
        (by simp [Draft.stored, hold, hname]) ?_
      intro other hother
      cases other <;> first | rfl | exact absurd rfl hother
  | config | saveConfig =>
    obtain ⟨path, hpath, h⟩ := bind_eq_ok_iff.mp h
    obtain ⟨_, honce, hd⟩ := bind_eq_ok_iff.mp h
    cases hd
    obtain ⟨hold, rfl⟩ := once_eq_ok_iff.mp honce
    obtain ⟨hvalue, rfl⟩ := path_eq_ok_iff.mp hpath
    refine leads_value hpaths hvalue ⟨rfl, rfl, rfl⟩ (by simp [Draft.stored, hold]) ?_
    intro other hother
    cases other <;> first | rfl | exact absurd rfl hother

theorem Draft.leads_of_addPath (hpaths : d.paths.length ≤ 2) (h : d.addPath path = .ok d') :
    d.Leads [.path path] d' := by
  unfold Draft.addPath at h
  split at h
  · cases h
  · next hlength =>
    split at h
    · cases h
    · next hpath =>
      cases h
      have hne : path ≠ "" := by simpa using hpath
      exact
        { paths := by simp
          at_most_two := by
            simp only [List.length_append, List.length_singleton]
            omega
          nonempty := by simpa using hne.symm
          values := fun key => by cases key <;> simp [Draft.stored]
          admitted := by simp
          failOnWorse := by simp
          alternate := by cases d.strict <;> simp
          strict := by cases d.strict <;> simp }

theorem Draft.leads_of_setStrict (hpaths : d.paths.length ≤ 2)
    (h : d.setStrict switch on = .ok d') : d.Leads [.strict on] d' := by
  unfold Draft.setStrict at h
  split at h
  · cases h
  · next hstrict =>
    cases h
    exact
      { paths := by simp
        at_most_two := hpaths
        nonempty := by simp
        values := fun key => by cases key <;> simp [Draft.stored]
        admitted := by simp
        failOnWorse := by simp
        alternate := by cases hd : d.strict <;> simp_all
        strict := by cases d.strict <;> simp }

theorem Draft.leads_of_add (hpaths : d.paths.length ≤ 2) (h : d.add item = .ok d') :
    d.Leads [item] d' := by
  cases item with
  | path path => exact leads_of_addPath hpaths h
  | value key value => exact leads_of_setKey hpaths h
  | strict on => exact leads_of_setStrict hpaths h
  | failOnWorse =>
    unfold Draft.add at h
    simp only at h
    split at h
    · cases h
    · next hfirst =>
      cases h
      exact
        { paths := by simp
          at_most_two := hpaths
          nonempty := by simp
          values := fun key => by cases key <;> simp [Draft.stored]
          admitted := by simp
          failOnWorse := by simp [hfirst]
          alternate := by cases d.strict <;> simp
          strict := by cases d.strict <;> simp }

theorem Draft.length_stored_le (d : Draft) (key : Key) : (d.stored key).length ≤ 1 := by
  have htoList {α : Type} (o : Option α) : o.toList.length ≤ 1 := by cases o <;> simp
  cases key <;> simp [Draft.stored, htoList]

theorem Draft.exists_setKey (hadmits : key.Admits value) (hfree : d.stored key = []) :
    ∃ d₁, d.setKey key value = .ok d₁ := by
  cases key with
  | metric | aggregate =>
    have hold := Option.toList_eq_nil_iff.mp hfree
    exact ⟨_, bind_eq_ok_iff.mpr ⟨_, once_eq_ok_iff.mpr ⟨hold, rfl⟩, rfl⟩⟩
  | format =>
    obtain ⟨format, hname⟩ := hadmits
    have hold := Option.toList_eq_nil_iff.mp (List.map_eq_nil_iff.mp hfree)
    unfold Draft.setKey
    simp only [Report.Format.ofName?_eq_some_iff.mpr hname]
    exact ⟨_, bind_eq_ok_iff.mpr ⟨_, once_eq_ok_iff.mpr ⟨hold, rfl⟩, rfl⟩⟩
  | config | saveConfig =>
    have hold := Option.toList_eq_nil_iff.mp hfree
    exact ⟨_, bind_eq_ok_iff.mpr ⟨value, path_eq_ok_iff.mpr ⟨hadmits, rfl⟩,
      bind_eq_ok_iff.mpr ⟨_, once_eq_ok_iff.mpr ⟨hold, rfl⟩, rfl⟩⟩⟩

/-! ### Items in sequence -/

/-- Where a sequence of items leads somewhere, its first one can be taken. -/
theorem Draft.Leads.exists_add (h : d.Leads (item :: items) d') : ∃ d₁, d.add item = .ok d₁ := by
  cases item with
  | path path =>
    have hlength : d.paths.length ≠ 2 := by
      have hle := h.at_most_two
      simp only [h.paths, List.length_append, pathsOf_cons, Item.path?, Option.toList_some,
        List.length_singleton] at hle
      omega
    have hempty : path.isEmpty = false := by
      have hne := h.nonempty
      simp only [pathsOf_cons, Item.path?, Option.toList_some, List.singleton_append,
        List.mem_cons, not_or] at hne
      simpa using Ne.symm hne.1
    refine ⟨{ d with paths := d.paths ++ [path] }, ?_⟩
    rw [Draft.add, Draft.addPath, if_neg hlength, hempty]
    rfl
  | value key value =>
    have hadmits : key.Admits value := h.admitted key value (by simp)
    have hfree : d.stored key = [] := by
      have hle := d'.length_stored_le key
      simp only [h.values key, List.length_append, valuesOf_cons, Item.value?, if_true,
        Option.toList_some, List.length_singleton] at hle
      exact List.length_eq_zero_iff.mp (by omega)
    exact exists_setKey hadmits hfree
  | strict on =>
    have hstrict : d.strict ≠ some on := by
      intro hstrict
      have halternate := h.alternate
      simp [hstrict] at halternate
    exact ⟨_, if_neg hstrict⟩
  | failOnWorse =>
    have hfirst : d.failOnWorse = false := by
      have hle := d'.failOnWorse.toNat_le
      rw [h.failOnWorse, List.count_cons_self] at hle
      cases hd : d.failOnWorse with
      | false => rfl
      | true =>
        simp only [hd, Bool.toNat_true] at hle
        omega
    refine ⟨{ d with failOnWorse := true }, ?_⟩
    rw [Draft.add, hfirst]
    rfl

/-- Behind the first item, the rest leads from where the first one has led to. -/
theorem Draft.Leads.tail_iff (h₁ : d.Leads [item] d₁) :
    d₁.Leads items d' ↔ d.Leads (item :: items) d' := by
  have hcount : (item :: items).count .failOnWorse =
      [item].count .failOnWorse + items.count .failOnWorse := by
    rw [← List.count_append]
    rfl
  have hstrictness : strictnessOf (item :: items) = strictnessOf [item] ++ strictnessOf items := by
    simp
  constructor
  · intro h
    exact
      { paths := by simp [h.paths, h₁.paths]
        at_most_two := h.at_most_two
        nonempty := by
          have hitem := h₁.nonempty
          have hitems := h.nonempty
          simp_all
        values := fun key => by simp [h.values, h₁.values]
        admitted := fun key value hvalue => by
          rw [valuesOf_cons, List.mem_append] at hvalue
          rcases hvalue with hitem | hitems
          · exact h₁.admitted key value (by simpa using hitem)
          · exact h.admitted key value hitems
        failOnWorse := by rw [h.failOnWorse, h₁.failOnWorse, hcount, Nat.add_assoc]
        alternate := by
          rw [hstrictness, ← List.append_assoc, ← isChain_getLast?_append h₁.alternate,
            ← h₁.strict]
          exact h.alternate
        strict := by
          rw [hstrictness, ← List.append_assoc, ← getLast?_getLast?_append, ← h₁.strict]
          exact h.strict }
  · intro h
    exact
      { paths := by simp [h.paths, h₁.paths]
        at_most_two := h.at_most_two
        nonempty := by
          have hitems := h.nonempty
          simp_all
        values := fun key => by simp [h.values, h₁.values]
        admitted := fun key value hvalue => h.admitted key value (by simp [hvalue])
        failOnWorse := by rw [h.failOnWorse, h₁.failOnWorse, hcount, Nat.add_assoc]
        alternate := by
          rw [h₁.strict, isChain_getLast?_append h₁.alternate, List.append_assoc, ← hstrictness]
          exact h.alternate
        strict := by
          rw [h₁.strict, getLast?_getLast?_append, List.append_assoc, ← hstrictness]
          exact h.strict }

theorem Draft.Leads.refl (hpaths : d.paths.length ≤ 2) : d.Leads [] d where
  paths := by simp
  at_most_two := hpaths
  nonempty := by simp
  values key := by simp
  admitted := by simp
  failOnWorse := by simp
  alternate := by cases d.strict <;> simp
  strict := by cases d.strict <;> simp

theorem Draft.Leads.eq_of_nil (h : d.Leads [] d') : d' = d := by
  have hpaths : d'.paths = d.paths := by simpa using h.paths
  have hvalues (key : Key) : d'.stored key = d.stored key := by simpa using h.values key
  have hfail : d'.failOnWorse = d.failOnWorse := by
    have hcount := h.failOnWorse
    cases hd : d.failOnWorse <;> cases hd' : d'.failOnWorse <;> simp_all
  have hstrict : d'.strict = d.strict := by
    rw [h.strict]
    cases d.strict <;> simp
  have hslot {α : Type} {o o' : Option α} (h : o.toList = o'.toList) : o = o' := by
    simpa using congrArg List.head? h
  have hmetric : d'.metric = d.metric := hslot (hvalues .metric)
  have haggregate : d'.aggregate = d.aggregate := hslot (hvalues .aggregate)
  have hformat : d'.format = d.format :=
    hslot (List.map_injective_iff.mpr Report.Format.name_injective (hvalues .format))
  have hconfig : d'.config = d.config := hslot (hvalues .config)
  have hsave : d'.saveConfig = d.saveConfig := hslot (hvalues .saveConfig)
  cases d
  cases d'
  simp_all

theorem Draft.foldlM_add_eq_ok_iff (hpaths : d.paths.length ≤ 2) :
    items.foldlM Draft.add d = .ok d' ↔ d.Leads items d' := by
  induction items generalizing d with
  | nil =>
    constructor
    · intro h
      cases h
      exact .refl hpaths
    · intro h
      rw [h.eq_of_nil]
      rfl
  | cons item items ih =>
    rw [List.foldlM_cons, bind_eq_ok_iff]
    constructor
    · rintro ⟨d₁, hadd, h⟩
      have h₁ := leads_of_add hpaths hadd
      exact h₁.tail_iff.mp ((ih h₁.at_most_two).mp h)
    · intro h
      obtain ⟨d₁, hadd⟩ := h.exists_add
      have h₁ := leads_of_add hpaths hadd
      exact ⟨d₁, hadd, (ih h₁.at_most_two).mpr (h₁.tail_iff.mpr h)⟩

/-! ### Whole command lines -/

/-- What the arguments have set once all of them are taken. -/
def Invocation.draft (i : Invocation) : Draft :=
  { paths := [i.baseline, i.comparison], metric := i.metric, aggregate := i.aggregate
    strict := i.strict, format := i.format, config := i.config, saveConfig := i.saveConfig
    failOnWorse := i.failOnWorse }

theorem Draft.finish_eq_ok_iff : d.finish = .ok (.run i) ↔ d = i.draft := by
  constructor
  · intro h
    unfold Draft.finish at h
    split at h
    · next baseline comparison hpaths =>
      cases h
      cases d
      cases hpaths
      rfl
    · cases h
  · rintro rfl
    rfl

theorem parse_eq_run_iff (h : Spelled items arguments) :
    parse arguments = .ok (.run i) ↔ Draft.Leads {} items i.draft := by
  rw [parse, takeAll_of_spelled h, bind_eq_ok_iff]
  have hempty : ({} : Draft).paths.length ≤ 2 := by simp
  constructor
  · rintro ⟨d, hitems, hfinish⟩
    rw [Draft.finish_eq_ok_iff] at hfinish
    rw [← hfinish]
    exact (Draft.foldlM_add_eq_ok_iff hempty).mp hitems
  · intro hleads
    exact ⟨i.draft, (Draft.foldlM_add_eq_ok_iff hempty).mpr hleads, rfl⟩

/-- What is asked of the items of a command line, strict mode left aside. -/
structure Proper (items : List Item) : Prop where
  two_paths : (pathsOf items).length = 2
  nonempty : "" ∉ pathsOf items
  once : ∀ key, (valuesOf key items).length ≤ 1
  admitted : ∀ key, ∀ value ∈ valuesOf key items, key.Admits value
  fails_once : items.count .failOnWorse ≤ 1

theorem Draft.Leads.stored_eq (h : Draft.Leads {} items i.draft) (key : Key) :
    i.draft.stored key = valuesOf key items := by
  rw [h.values key]
  cases key <;> rfl

theorem Draft.Leads.proper (h : Draft.Leads {} items i.draft) : Proper items where
  two_paths := by
    have hpaths : i.draft.paths = pathsOf items := by simpa using h.paths
    rw [← hpaths]
    rfl
  nonempty := h.nonempty
  once key := by
    rw [← h.stored_eq key]
    exact i.draft.length_stored_le key
  admitted := h.admitted
  fails_once := by
    have hle := i.draft.failOnWorse.toNat_le
    rw [h.failOnWorse] at hle
    omega

theorem exists_parse_iff (h : Spelled items arguments) :
    (∃ i, parse arguments = .ok (.run i)) ↔
      Proper items ∧ (strictnessOf items).IsChain (· ≠ ·) := by
  constructor
  · rintro ⟨i, hparse⟩
    have hleads := (parse_eq_run_iff h).mp hparse
    exact ⟨hleads.proper, hleads.alternate⟩
  · rintro ⟨hproper, halternate⟩
    obtain ⟨baseline, comparison, hpaths⟩ := List.length_eq_two.mp hproper.two_paths
    obtain ⟨format, hformat⟩ : ∃ format : Option Report.Format,
        format.toList.map Report.Format.name = valuesOf .format items := by
      match hvalues : valuesOf .format items, hproper.once .format with
      | [], _ => exact ⟨none, rfl⟩
      | [value], _ =>
        obtain ⟨format, rfl⟩ := hproper.admitted .format value (by simp [hvalues])
        exact ⟨some format, rfl⟩
    refine ⟨⟨baseline, comparison, (valuesOf .metric items).head?,
      (valuesOf .aggregate items).head?, (strictnessOf items).getLast?, format,
      (valuesOf .config items).head?, (valuesOf .saveConfig items).head?,
      decide (items.count .failOnWorse = 1)⟩, (parse_eq_run_iff h).mpr ?_⟩
    exact
      { paths := hpaths.symm
        at_most_two := by simp [Invocation.draft]
        nonempty := hproper.nonempty
        values := fun key => by
          cases key with
          | metric | aggregate | config | saveConfig => exact toList_head? (hproper.once _)
          | format => exact hformat
        admitted := hproper.admitted
        failOnWorse := by
          have hle := hproper.fails_once
          rcases Nat.le_one_iff_eq_zero_or_eq_one.mp hle with hcount | hcount <;>
            simp [Invocation.draft, hcount]
        alternate := halternate
        strict := rfl }

end CommandLine
end EvalDiff
