import EvalDiff.Proofs.Toml.Quoting
import EvalDiff.Toml.Reader

/-!
# Lines that set keys

A line sets a key to a string or a truth value, with the blanks, the comment and the kind of line
break it may have.  A document made of such lines holds just what they set, as long as no key is
set twice: `Sets.read?_eq`.
-/

namespace EvalDiff
namespace Toml

open Text Reader

variable {c : Char} {cs ds rest written before : List Char} {name : String} {v : Value}
  {entries : Entries}

/-! ### Keys -/

/-- A key that needs no quotes. -/
structure IsBareKey (name : String) : Prop where
  nonempty : name.toList ≠ []
  chars : name.toList.all isKeyChar = true

/-- A key as it may be written, and its name. -/
inductive KeyText : List Char → String → Prop where
  | bare {name : String} (h : IsBareKey name) : KeyText name.toList name
  | basic {written cs : List Char} (h : BasicLine written cs) :
    KeyText ('"' :: written ++ ['"']) (String.ofList cs)
  | literal {cs : List Char} (h : LiteralLine cs) :
    KeyText ('\'' :: cs ++ ['\'']) (String.ofList cs)

/-- What a key starts with. -/
def startsKey (c : Char) : Bool := isKeyChar c || c = '"' || c = '\''

theorem ne_of_startsKey {d : Char} (hc : startsKey c = true) (hd : startsKey d = false) :
    c ≠ d := by
  rintro rfl
  simp [hc] at hd

theorem isSpace_of_startsKey (h : startsKey c = true) : isSpace c = false := by
  have hspace : c ≠ ' ' := ne_of_startsKey h rfl
  have htab : c ≠ '\t' := ne_of_startsKey h rfl
  simp [isSpace, hspace, htab]

theorem IsBareKey.exists_cons (h : IsBareKey name) :
    ∃ c cs, name.toList = c :: cs ∧ isKeyChar c = true := by
  obtain ⟨c, cs, hcs⟩ := List.exists_cons_of_ne_nil h.nonempty
  exact ⟨c, cs, hcs, List.all_eq_true.mp h.chars c (by simp [hcs])⟩

theorem KeyText.exists_cons (h : KeyText written name) :
    ∃ c cs, written = c :: cs ∧ startsKey c = true := by
  cases h with
  | bare h =>
    obtain ⟨c, cs, hcs, hc⟩ := h.exists_cons
    exact ⟨c, cs, hcs, by simp [startsKey, hc]⟩
  | basic => exact ⟨_, _, rfl, rfl⟩
  | literal => exact ⟨_, _, rfl, rfl⟩

theorem IsBareKey.keyPart (h : IsBareKey name) (hrest : ∀ c ∈ rest.head?, isKeyChar c = false) :
    keyPart (name.toList ++ rest) = some (name, rest) := by
  obtain ⟨c, cs, hcs, hc⟩ := h.exists_cons
  have hne {d : Char} (hd : isKeyChar d = false) : c ≠ d := by
    rintro rfl
    simp [hc] at hd
  have hspan := span1_append h.nonempty (List.all_eq_true.mp h.chars) hrest
  have hpeek : peek (name.toList ++ rest) = some (some c, name.toList ++ rest) := by rw [hcs]; rfl
  rw [Toml.keyPart, bind_eq_of_eq _ hpeek]
  refine (congrFun (?_ : _ = String.ofList <$> span1 isKeyChar) _).trans ?_
  · split
    · next heq => exact absurd (Option.some.inj heq) (hne rfl)
    · next heq => exact absurd (Option.some.inj heq) (hne rfl)
    · rfl
  · rw [map_eq_of_eq _ hspan, String.ofList_toList]

theorem KeyText.keyPart (h : KeyText written name)
    (hrest : ∀ c ∈ rest.head?, isKeyChar c = false) :
    keyPart (written ++ rest) = some (name, rest) := by
  cases h with
  | bare h => exact h.keyPart hrest
  | basic h =>
    rw [List.append_assoc]
    exact (bind_eq_of_eq _ (peek_cons _ _)).trans ((bind_eq_of_eq _ (char_cons _ _)).trans
      (map_eq_of_eq _ (h.basicBody rest)))
  | literal h =>
    rw [List.append_assoc]
    exact (bind_eq_of_eq _ (peek_cons _ _)).trans ((bind_eq_of_eq _ (char_cons _ _)).trans
      (map_eq_of_eq _ (h.literalBody rest)))

/-- Blanks within a line. -/
def Spaces (cs : List Char) : Prop := ∀ c ∈ cs, isSpace c = true

theorem Spaces.gap (h : Spaces cs) (hrest : ∀ c ∈ rest.head?, isSpace c = false) :
    gap (cs ++ rest) = some ((), rest) := gap_append h hrest

theorem KeyText.gap (h : KeyText written name) (rest : List Char) :
    gap (written ++ rest) = some ((), written ++ rest) := by
  obtain ⟨c, cs, rfl, hc⟩ := h.exists_cons
  exact gap_of_head (by simp [isSpace_of_startsKey hc])

theorem isKeyChar_of_isSpace (h : isSpace c = true) : isKeyChar c = false := by
  have hc : c = ' ' ∨ c = '\t' := by simpa [isSpace] using h
  rcases hc with rfl | rfl <;> rfl

theorem KeyText.key (h : KeyText written name) (hbefore : Spaces before) (rest : List Char) :
    key (written ++ (before ++ '=' :: rest)) = some (([], name), '=' :: rest) := by
  have hgap : Toml.gap (before ++ '=' :: rest) = some ((), '=' :: rest) :=
    hbefore.gap (by simp; rfl)
  have hmany : many (do Toml.gap; char '.'; Toml.gap; Toml.keyPart) (before ++ '=' :: rest) =
      some ([], before ++ '=' :: rest) :=
    many_eq_nil ((bind_eq_of_eq _ hgap).trans (bind_eq_none _ (char_cons_of_ne (by decide) _)))
  have hpart : Toml.keyPart (written ++ (before ++ '=' :: rest)) =
      some (name, before ++ '=' :: rest) := by
    refine h.keyPart fun c hc => ?_
    cases before with
    | nil => cases hc; rfl
    | cons d ds => cases hc; exact isKeyChar_of_isSpace (hbefore _ List.mem_cons_self)
  rw [Toml.key, bind_eq_of_eq _ (h.gap _), bind_eq_of_eq _ hpart, bind_eq_of_eq _ hmany,
    bind_eq_of_eq _ hgap]
  rfl

/-! ### Values -/

/-- A string or a truth value as it may be written. -/
inductive ValueText : List Char → Value → Prop where
  | string {written cs : List Char} (h : Quoted written cs) :
    ValueText written (.string (String.ofList cs))
  | isTrue : ValueText ['t', 'r', 'u', 'e'] (.boolean true)
  | isFalse : ValueText ['f', 'a', 'l', 's', 'e'] (.boolean false)

/-- What may stand behind a value: nothing that could be taken for a part of it. -/
def EndsValue (rest : List Char) : Prop :=
  ∀ c ∈ rest.head?, isBare c = false ∧ c ≠ '"' ∧ c ≠ '\''

theorem bare_append (hds : ds.all isBare = true) (hrest : EndsValue rest)
    (hdate : isDate ds = false) (hvalue : bareValue? ds = some v) :
    bare (ds ++ rest) = some (v, rest) := by
  have hspan : (ds ++ rest).span isBare = (ds, rest) :=
    span_append (List.all_eq_true.mp hds) fun c hc => (hrest c hc).1
  rw [bare, hspan]
  cases rest with
  | nil => simp [hvalue]
  | cons c rest => by_cases hc : c = ' ' <;> simp [hc, hdate, hvalue]

theorem ValueText.value (h : ValueText written v) (hrest : EndsValue rest) :
    value (depthLimit - 1) (written ++ rest) = some (v, rest) := by
  cases h with
  | string h =>
    obtain ⟨q, more, rfl, hq⟩ := h.exists_cons
    have hstring : Toml.string (q :: more ++ rest) = some (String.ofList _, rest) :=
      h.string (fun heq => (hrest _ heq).2.1 rfl) (fun heq => (hrest _ heq).2.2 rfl)
    rcases hq with rfl | rfl <;> exact map_eq_of_eq _ hstring
  | isTrue =>
    have hword : ['t', 'r', 'u', 'e'].all isBare = true := rfl
    exact bare_append hword hrest rfl rfl
  | isFalse =>
    have hword : ['f', 'a', 'l', 's', 'e'].all isBare = true := rfl
    exact bare_append hword hrest rfl rfl

theorem ValueText.exists_cons (h : ValueText written v) :
    ∃ c cs, written = c :: cs ∧ isSpace c = false := by
  cases h with
  | string h =>
    obtain ⟨q, more, rfl, hq⟩ := h.exists_cons
    exact ⟨q, more, rfl, by rcases hq with rfl | rfl <;> rfl⟩
  | isTrue => exact ⟨_, _, rfl, rfl⟩
  | isFalse => exact ⟨_, _, rfl, rfl⟩

theorem valueText_writeString (text : String) : ValueText (writeString text) (.string text) := by
  simpa using ValueText.string (quoted_writeString text)

/-! ### Lines -/

/-- The end of a line: blanks, perhaps a comment, and the line break. -/
inductive LineEnd : List Char → Prop where
  | plain {spaces ds : List Char} (hspaces : Spaces spaces) (hds : LineBreak ds) :
    LineEnd (spaces ++ ds)
  | comment {spaces text ds : List Char} (hspaces : Spaces spaces)
    (htext : ∀ c ∈ text, isPlain c = true) (hds : LineBreak ds) :
    LineEnd (spaces ++ '#' :: (text ++ ds))

theorem LineBreak.head_append (h : LineBreak ds) (rest : List Char) :
    ∀ c ∈ (ds ++ rest).head?, c = '\n' ∨ c = '\r' := by
  cases h <;> simp

theorem LineEnd.read (h : LineEnd ds) (rest : List Char) :
    lineEnd (ds ++ rest) = some ((), rest) := by
  cases h with
  | @plain spaces ds hspaces hds =>
    have hhead := hds.head_append rest
    have hgap : gap (spaces ++ (ds ++ rest)) = some ((), ds ++ rest) :=
      hspaces.gap fun c hc => by rcases hhead c hc with rfl | rfl <;> rfl
    have hpeek : peek (ds ++ rest) = some ((ds ++ rest).head?, ds ++ rest) := rfl
    have hmark : (ds ++ rest).head? ≠ some '#' := fun heq => by
      rcases hhead '#' heq with hc | hc <;> cases hc
    rw [List.append_assoc]
    refine (bind_eq_of_eq _ hgap).trans ((bind_eq_of_eq _ hpeek).trans ?_)
    rw [if_neg hmark]
    exact orElse_eq_of_eq _ (hds.read rest)
  | @comment spaces text ds hspaces htext hds =>
    have hgap : gap (spaces ++ '#' :: (text ++ (ds ++ rest))) =
        some ((), '#' :: (text ++ (ds ++ rest))) := hspaces.gap (by simp; rfl)
    have hspan : span isPlain (text ++ (ds ++ rest)) = some (text, ds ++ rest) := by
      refine congrArg some (span_append htext fun c hc => ?_)
      rcases hds.head_append rest c hc with rfl | rfl <;> rfl
    have hcomment : Toml.comment ('#' :: (text ++ (ds ++ rest))) = some ((), ds ++ rest) :=
      (bind_eq_of_eq _ (char_cons _ _)).trans (bind_eq_of_eq _ hspan)
    have hlayout : spaces ++ '#' :: (text ++ ds) ++ rest =
        spaces ++ '#' :: (text ++ (ds ++ rest)) := by simp
    rw [hlayout]
    refine (bind_eq_of_eq _ hgap).trans ((bind_eq_of_eq _ (peek_cons _ _)).trans ?_)
    rw [if_pos rfl]
    exact (bind_eq_of_eq _ hcomment).trans (orElse_eq_of_eq _ (hds.read rest))

theorem LineEnd.endsValue (h : LineEnd ds) (rest : List Char) : EndsValue (ds ++ rest) := by
  have hspaces {spaces more : List Char} (hspaces : Spaces spaces) (hmore : EndsValue more) :
      EndsValue (spaces ++ more) := by
    cases spaces with
    | nil => exact hmore
    | cons d ds =>
      have hd : d = ' ' ∨ d = '\t' := by simpa [isSpace] using hspaces d List.mem_cons_self
      rcases hd with rfl | rfl <;> (intro c hc; cases hc; decide)
  cases h with
  | plain h hds =>
    rw [List.append_assoc]
    refine hspaces h fun c hc => ?_
    rcases hds.head_append rest c hc with rfl | rfl <;> decide
  | comment h =>
    rw [List.append_assoc]
    refine hspaces h fun c hc => ?_
    cases hc
    decide

/-- A line that sets a key to a value. -/
inductive SettingLine : List Char → String → Value → Prop where
  | intro {indent key before after value ending : List Char} {name : String} {v : Value}
    (hindent : Spaces indent) (hkey : KeyText key name) (hbefore : Spaces before)
    (hafter : Spaces after) (hvalue : ValueText value v) (hending : LineEnd ending) :
    SettingLine (indent ++ (key ++ (before ++ '=' :: (after ++ (value ++ ending))))) name v

theorem setting_append {key after value ending : List Char} (hkey : KeyText key name)
    (hbefore : Spaces before) (hafter : Spaces after) (hvalue : ValueText value v)
    (hending : LineEnd ending) (rest : List Char) :
    setting (Toml.value (depthLimit - 1))
        (key ++ (before ++ '=' :: (after ++ (value ++ (ending ++ rest))))) =
      some (([], name, v), ending ++ rest) := by
  obtain ⟨c, cs, hcs, hc⟩ := hvalue.exists_cons
  have hgap : gap (after ++ (value ++ (ending ++ rest))) = some ((), value ++ (ending ++ rest)) :=
    hafter.gap (by simp [hcs, hc])
  exact (bind_eq_of_eq _ (hkey.key hbefore _)).trans ((bind_eq_of_eq _ (char_cons '=' _)).trans
    ((bind_eq_of_eq _ hgap).trans (bind_eq_of_eq _ (hvalue.value (hending.endsValue rest)))))

theorem SettingLine.line (h : SettingLine written name v) (rest : List Char) :
    line (written ++ rest) = some (some (.setting [] name v), rest) := by
  cases h with
  | @intro indent key before after value ending name v hindent hkey hbefore hafter hvalue hending =>
    have hlayout : indent ++ (key ++ (before ++ '=' :: (after ++ (value ++ ending)))) ++ rest =
        indent ++ (key ++ (before ++ '=' :: (after ++ (value ++ (ending ++ rest))))) := by simp
    have hsetting := setting_append hkey hbefore hafter hvalue hending rest
    obtain ⟨c, cs, hcs, hc⟩ := hkey.exists_cons
    have hgap : gap (indent ++ (key ++ (before ++ '=' :: (after ++ (value ++ (ending ++ rest)))))) =
        some ((), key ++ (before ++ '=' :: (after ++ (value ++ (ending ++ rest))))) :=
      hindent.gap (by simp [hcs, isSpace_of_startsKey hc])
    rw [hlayout, Toml.line, bind_eq_of_eq _ hgap]
    rw [hcs] at hsetting ⊢
    rw [List.cons_append, bind_eq_of_eq _ (peek_cons c _)]
    refine (congrFun (?_ : _ = (do
      let found ← setting (Toml.value (depthLimit - 1))
      lineEnd
      return some (.setting found.1 found.2.1 found.2.2) : Reader (Option Statement))) _).trans ?_
    · split
      · next heq => exact absurd (Option.some.inj heq) (ne_of_startsKey hc rfl)
      · next heq =>
        cases heq
        have hhash : c ≠ '#' := ne_of_startsKey hc rfl
        have hnewline : c ≠ '\n' := ne_of_startsKey hc rfl
        have hreturn : c ≠ '\r' := ne_of_startsKey hc rfl
        exact if_neg (by simp [hhash, hnewline, hreturn])
      · next heq => cases heq
    · exact (bind_eq_of_eq _ hsetting).trans (bind_eq_of_eq _ (hending.read rest))

theorem SettingLine.exists_cons (h : SettingLine written name v) :
    ∃ c cs, written = c :: cs ∧ c ≠ '\ufeff' := by
  cases h with
  | @intro indent _ _ _ _ _ _ _ hindent hkey =>
    cases indent with
    | nil =>
      obtain ⟨c, cs, hcs, hc⟩ := hkey.exists_cons
      exact ⟨c, _, by rw [hcs]; rfl, ne_of_startsKey hc rfl⟩
    | cons d ds =>
      refine ⟨d, _, rfl, ?_⟩
      rintro rfl
      exact absurd (hindent _ List.mem_cons_self) (by decide)

/-- Lines that set keys, and what they set. -/
inductive Sets : List Char → Entries → Prop where
  | nil : Sets [] []
  | cons {name : String} {written rest : List Char} {v : Value} {entries : Entries}
    (hline : SettingLine written name v) (h : Sets rest entries) :
    Sets (written ++ rest) ((name, v) :: entries)

theorem Sets.scans (h : Sets cs entries) :
    Scans finish line cs (entries.map fun (name, v) => some (.setting [] name v)) () [] := by
  induction h with
  | nil => exact .done rfl
  | cons hline _ ih =>
    obtain ⟨c, more, hcons, -⟩ := hline.exists_cons
    refine .turn ?_ (hline.line _) ?_ ih
    · rw [hcons]
      rfl
    · simp only [hcons, List.cons_append, List.length_cons, List.length_append]
      omega

theorem Sets.statements? (h : Sets cs entries) :
    statements? cs = some (entries.map fun (name, v) => .setting [] name v) := by
  have hmark : cs.head? ≠ some '\ufeff' := by
    cases h with
    | nil => nofun
    | cons hline =>
      obtain ⟨c, ds, hds, hc⟩ := hline.exists_cons
      simpa [hds] using hc
  simp [Toml.statements?, hmark, h.scans.untilClose, List.filterMap_map]

/-! ### Tables -/

theorem Entries.set_of_not_mem (h : name ∉ entries.map Prod.fst) (v : Value) :
    entries.set name v = entries ++ [(name, v)] := by
  have hany : ¬ entries.any (·.1 == name) = true := by
    intro hany
    obtain ⟨entry, hentry, heq⟩ := List.any_eq_true.mp hany
    exact h (List.mem_map.mpr ⟨entry, hentry, by simpa using heq⟩)
  exact if_neg hany

theorem Entries.get?_eq_none_iff : entries.get? name = none ↔ name ∉ entries.map Prod.fst := by
  rw [Entries.get?, List.lookup_eq_none_iff, List.mem_map, not_exists]
  refine forall_congr' fun entry => ?_
  rw [not_and, bne_iff_ne, ne_comm]

/-- A line sets a key that is not set yet. -/
theorem step_setting (v : Value) :
    Draft.step { root := [], place := .root, current := entries } (.setting [] name v) =
      if name ∈ entries.map Prod.fst then none
      else some { root := [], place := .root, current := entries ++ [(name, v)] } := by
  split
  · next h =>
    have hsome : (entries.get? name).isSome = true := by
      rw [Option.isSome_iff_ne_none, ne_eq, Entries.get?_eq_none_iff]
      exact not_not.mpr h
    simp [Draft.step, insertAt, changeAt, hsome]
  · next h =>
    simp [Draft.step, insertAt, changeAt, Entries.get?_eq_none_iff.mpr h, Entries.set_of_not_mem h]

theorem foldlM_step_settings {behind : Entries} (hbehind : (behind.map Prod.fst).Nodup) :
    (entries.map fun (name, v) => Statement.setting [] name v).foldlM Draft.step
        { root := [], place := .root, current := behind } =
      if ((behind ++ entries).map Prod.fst).Nodup then
        some { root := [], place := .root, current := behind ++ entries }
      else none := by
  induction entries generalizing behind with
  | nil => simp [hbehind]
  | cons entry entries ih =>
    obtain ⟨name, v⟩ := entry
    rw [List.map_cons, List.foldlM_cons, step_setting]
    by_cases hname : name ∈ behind.map Prod.fst
    · have hrepeated : ¬ ((behind ++ (name, v) :: entries).map Prod.fst).Nodup := by
        rw [List.map_append, List.map_cons, List.nodup_append]
        exact fun h => h.2.2 name hname name List.mem_cons_self rfl
      rw [if_pos hname, if_neg hrepeated]
      rfl
    · have hnext : ((behind ++ [(name, v)]).map Prod.fst).Nodup := by
        rw [List.map_append, List.nodup_append]
        refine ⟨hbehind, by simp, fun other hother last hlast => ?_⟩
        rintro rfl
        simp only [List.map_cons, List.map_nil, List.mem_singleton] at hlast
        exact hname (hlast ▸ hother)
      have hrest := ih hnext
      rw [List.append_assoc, List.singleton_append] at hrest
      rw [if_neg hname]
      exact hrest

theorem build_settings (entries : Entries) :
    build (entries.map fun (name, v) => .setting [] name v) =
      if (entries.map Prod.fst).Nodup then some entries else none := by
  have hsteps := @foldlM_step_settings entries [] List.nodup_nil
  rw [List.nil_append] at hsteps
  rw [build, Draft.empty, hsteps]
  split <;> rfl

/-- A document of lines that set keys holds what they set, unless a key is set twice. -/
theorem Sets.read?_eq (h : Sets cs entries) :
    read? cs = if (entries.map Prod.fst).Nodup then some entries else none := by
  rw [Toml.read?, h.statements?]
  exact build_settings entries

end Toml
end EvalDiff
