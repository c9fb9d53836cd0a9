import EvalDiff.Proofs.Json.Decimals
import EvalDiff.Proofs.Json.Values
import EvalDiff.Proofs.Lists
import EvalDiff.Report.Format

/-!
# Reports read back from JSON

What is written of a report is read member by member.  Everything but its doubles comes back as it
was, in both layouts.  The doubles come back if they are finite, and then not always with the same
last bits.
-/

namespace EvalDiff

namespace Json

theorem proper_ofNat (n : Nat) : (Value.ofNat n).Proper := by
  refine .number ⟨isDigits_digits n, fun hzero => ?_, nofun, nofun⟩
  rcases Nat.eq_zero_or_pos n with rfl | hpos
  · rfl
  · exact absurd hzero (Decimal.head?_digits_ne_zero hpos)

theorem proper_ofBinary64 (x : Binary64) : (Value.ofBinary64 x).Proper := by
  cases x with
  | nan => exact .null
  | number negative rank hle =>
    rw [Value.ofBinary64]
    split
    · exact .null
    · exact .number (ofRank_proper negative rank)

end Json

namespace Report

open Json Binary64

/-! ### Writing and reading as values -/

theorem proper_record {members : List (String × Value)} (h : ∀ m ∈ members, m.2.Proper) :
    (record members).Proper := by
  refine .object (fun m hm => ?_) fun m hm => ?_ <;>
    obtain ⟨m, hm', rfl⟩ := List.mem_map.mp hm
  · rfl
  · exact h m hm'

theorem proper_record_zip {names : List String} {values : List Value}
    (h : ∀ v ∈ values, v.Proper) : (record (names.zip values)).Proper :=
  proper_record fun _ hm => h _ (List.of_mem_zip hm).2

theorem proper_toValue (r : Report) : (toValue r).Proper := by
  have hentry : ∀ e : Entry, (entryValue e).Proper := fun e =>
    proper_record_zip <| by
      simp only [List.forall_mem_cons]
      exact ⟨proper_ofNat _, .string _, proper_ofBinary64 _, proper_ofBinary64 _,
        proper_ofBinary64 _, .string _, nofun⟩
  have hsummary : (summaryValue r.summary).Proper :=
    proper_record_zip <| by
      simp only [List.forall_mem_cons]
      exact ⟨proper_ofBinary64 _, proper_ofBinary64 _, proper_ofBinary64 _, proper_ofBinary64 _,
        nofun⟩
  refine proper_record_zip ?_
  simp only [List.forall_mem_cons]
  exact ⟨.string _, .array (List.forall_mem_map.mpr fun e _ => hentry e), hsummary, nofun⟩

theorem ofDocument?_document {layout : Layout} (hl : layout.Blank) (r : Report) :
    ofDocument? (document layout r) = ofValue? (toValue r) := by
  rw [ofDocument?, document, String.toList_ofList, read?_write hl (proper_toValue r)]
  rfl

/-! ### Members -/

theorem filter_record_eq_nil {names : List String} {values : List Value} {name : String}
    (h : name ∉ names) :
    ((names.zip values).map fun m => (some m.1, m.2)).filter (·.1 == some name) = [] := by
  rw [List.filter_eq_nil_iff, List.forall_mem_map]
  intro m hm heq
  have := (List.of_mem_zip hm).1
  rw [Option.some.inj (eq_of_beq heq)] at this
  exact h this

theorem filter_record {names : List String} {values : List Value} {name : String} {v : Value}
    (hnames : names.Nodup) (h : (name, v) ∈ names.zip values) :
    ((names.zip values).map fun m => (some m.1, m.2)).filter (·.1 == some name) =
      [(some name, v)] := by
  induction names generalizing values with
  | nil => cases h
  | cons first names ih =>
    cases values with
    | nil => cases h
    | cons w values =>
      obtain ⟨hfirst, hrest⟩ := List.nodup_cons.mp hnames
      rw [List.zip_cons_cons, List.map_cons, List.filter_cons]
      rw [List.zip_cons_cons] at h
      rcases List.mem_cons.mp h with heq | hmem
      · cases heq
        rw [if_pos (beq_self_eq_true _), filter_record_eq_nil hfirst]
      · have hne : first ≠ name := fun heq => hfirst (heq ▸ (List.of_mem_zip hmem).1)
        rw [if_neg (by simpa using hne), ih hrest hmem]

theorem member?_record {names : List String} {values : List Value} {name : String} {v : Value}
    (hnames : names.Nodup) (h : (name, v) ∈ names.zip values) :
    member? ((names.zip values).map fun m => (some m.1, m.2)) name = some v := by
  rw [member?, filter_record hnames h]

/-- Members written under different names are all found. -/
theorem members?_record {names : List String} {values : List Value} (hnames : names.Nodup)
    (hlength : names.length = values.length) :
    members? names (record (names.zip values)) = some values := by
  have hall : ((names.zip values).map fun m => (some m.1, m.2)).all (·.1.isSome) = true := by
    rw [List.all_map]
    exact List.all_eq_true.mpr fun _ _ => rfl
  rw [record, members?, if_pos hall, mapM_eq_some_iff, List.forall₂_iff_zip]
  exact ⟨hlength, fun h => member?_record hnames h⟩

/-! ### Parts that come back -/

theorem nat?_ofNat {n : Nat} (h : n < 2 ^ 64) : nat? (.ofNat n) = some n := by
  simp only [nat?, Value.ofNat, Number.toNat?, Decimal.natOfDigits_digits]
  rw [if_neg (by simp)]
  exact if_pos h

theorem verdict?_label (v : Verdict) : verdict? (textValue v.label) = some v :=
  Verdict.ofLabel?_label v

/-- A double is read from what is written for another one. -/
def Reread (x y : Binary64) : Prop := binary64? (.ofBinary64 x) = some y

/-- Entries that differ in their doubles at most. -/
structure Entry.Agree (related : Binary64 → Binary64 → Prop) (e e' : Entry) : Prop where
  line : e'.line = e.line
  category : e'.category = e.category
  verdict : e'.verdict = e.verdict
  baseline : related e.baseline e'.baseline
  comparison : related e.comparison e'.comparison
  delta : related e.delta e'.delta

structure Summary.Agree (related : Binary64 → Binary64 → Prop) (s s' : Summary) : Prop where
  better : related s.better s'.better
  worse : related s.worse s'.worse
  unchanged : related s.unchanged s'.unchanged
  ratio : related s.ratio s'.ratio

/-- Reports that differ in their doubles at most, which are related one by one. -/
structure Agree (related : Binary64 → Binary64 → Prop) (r r' : Report) : Prop where
  metric : r'.metric = r.metric
  entries : List.Forall₂ (Entry.Agree related) r.entries r'.entries
  summary : Summary.Agree related r.summary r'.summary

theorem entry?_entryValue_iff {e e' : Entry} (h : e.line < 2 ^ 64) :
    entry? (entryValue e) = some e' ↔ e.Agree Reread e' := by
  have hmembers : members? entryNames (entryValue e) =
      some [.ofNat e.line, textValue e.category, .ofBinary64 e.baseline, .ofBinary64 e.comparison,
        .ofBinary64 e.delta, textValue e.verdict.label] := members?_record (by decide) rfl
  have htext : text? (textValue e.category) = some e.category := rfl
  simp only [hmembers, entry?, Option.bind_eq_bind, Option.bind_some, nat?_ofNat h, htext,
    verdict?_label, Option.bind_eq_some_iff, Option.pure_def, Option.some.injEq]
  constructor
  · rintro ⟨b, hb, c, hc, d, hd, rfl⟩
    exact ⟨rfl, rfl, rfl, hb, hc, hd⟩
  · rintro ⟨hline, hcategory, hverdict, hb, hc, hd⟩
    refine ⟨_, hb, _, hc, _, hd, ?_⟩
    rw [← hline, ← hcategory, ← hverdict]

theorem summary?_summaryValue_iff {s s' : Summary} :
    summary? (summaryValue s) = some s' ↔ s.Agree Reread s' := by
  have hmembers : members? summaryNames (summaryValue s) =
      some [.ofBinary64 s.better, .ofBinary64 s.worse, .ofBinary64 s.unchanged,
        .ofBinary64 s.ratio] := members?_record (by decide) rfl
  simp only [summary?, hmembers, Option.bind_eq_bind, Option.bind_some, Option.bind_eq_some_iff,
    Option.pure_def, Option.some.injEq]
  constructor
  · rintro ⟨b, hb, w, hw, u, hu, q, hq, rfl⟩
    exact ⟨hb, hw, hu, hq⟩
  · rintro ⟨hb, hw, hu, hq⟩
    exact ⟨_, hb, _, hw, _, hu, _, hq, rfl⟩

theorem entries?_iff {es es' : List Entry} (h : ∀ e ∈ es, e.line < 2 ^ 64) :
    entries? (.array (es.map entryValue)) = some es' ↔
      List.Forall₂ (Entry.Agree Reread) es es' := by
  rw [entries?, mapM_eq_some_iff, List.forall₂_map_left_iff]
  induction es generalizing es' with
  | nil => simp only [List.forall₂_nil_left_iff]
  | cons e es ih =>
    obtain ⟨hline, hrest⟩ := List.forall_mem_cons.mp h
    simp only [List.forall₂_cons_left_iff, entry?_entryValue_iff hline, ih hrest]

/-- Reading is a relation of the doubles; all the rest of a report comes back. -/
theorem ofValue?_toValue_iff {r r' : Report} (h : ∀ e ∈ r.entries, e.line < 2 ^ 64) :
    ofValue? (toValue r) = some r' ↔ r.Agree Reread r' := by
  have hmembers : members? reportNames (toValue r) =
      some [textValue r.metric, .array (r.entries.map entryValue), summaryValue r.summary] :=
    members?_record (by decide) rfl
  have htext : text? (textValue r.metric) = some r.metric := rfl
  simp only [ofValue?, hmembers, Option.bind_eq_bind, Option.bind_some, htext,
    Option.bind_eq_some_iff, Option.pure_def, Option.some.injEq, entries?_iff h,
    summary?_summaryValue_iff]
  constructor
  · rintro ⟨es, hes, s, hs, rfl⟩
    exact ⟨rfl, hes, hs⟩
  · rintro ⟨hmetric, hes, hs⟩
    refine ⟨_, hes, _, hs, ?_⟩
    rw [← hmetric]

/-! ### Doubles -/

def Entry.doubles (e : Entry) : List Binary64 := [e.baseline, e.comparison, e.delta]

def Summary.doubles (s : Summary) : List Binary64 := [s.better, s.worse, s.unchanged, s.ratio]

/-- All doubles of a report. -/
def doubles (r : Report) : List Binary64 := r.entries.flatMap Entry.doubles ++ r.summary.doubles

variable {related : Binary64 → Binary64 → Prop} {r r' : Report}

theorem exists_entry_agree_iff {e : Entry} :
    (∃ e', e.Agree related e') ↔ ∀ x ∈ e.doubles, ∃ y, related x y := by
  simp only [Entry.doubles, List.forall_mem_cons]
  constructor
  · rintro ⟨e', h⟩
    exact ⟨⟨_, h.baseline⟩, ⟨_, h.comparison⟩, ⟨_, h.delta⟩, nofun⟩
  · rintro ⟨⟨b, hb⟩, ⟨c, hc⟩, ⟨d, hd⟩, -⟩
    exact ⟨{ e with baseline := b, comparison := c, delta := d }, rfl, rfl, rfl, hb, hc, hd⟩

theorem exists_summary_agree_iff {s : Summary} :
    (∃ s', s.Agree related s') ↔ ∀ x ∈ s.doubles, ∃ y, related x y := by
  simp only [Summary.doubles, List.forall_mem_cons]
  constructor
  · rintro ⟨s', h⟩
    exact ⟨⟨_, h.better⟩, ⟨_, h.worse⟩, ⟨_, h.unchanged⟩, ⟨_, h.ratio⟩, nofun⟩
  · rintro ⟨⟨b, hb⟩, ⟨w, hw⟩, ⟨u, hu⟩, ⟨q, hq⟩, -⟩
    exact ⟨⟨b, w, u, q⟩, hb, hw, hu, hq⟩

/-- A report has a related one if each of its doubles has. -/
theorem exists_agree_iff :
    (∃ r', r.Agree related r') ↔ ∀ x ∈ r.doubles, ∃ y, related x y := by
  have hentries : (∃ es, List.Forall₂ (Entry.Agree related) r.entries es) ↔
      ∀ x ∈ r.entries.flatMap Entry.doubles, ∃ y, related x y := by
    simp only [exists_forall₂_iff, exists_entry_agree_iff, List.forall_mem_flatMap]
  rw [doubles, List.forall_mem_append, ← hentries, ← exists_summary_agree_iff]
  constructor
  · rintro ⟨r', h⟩
    exact ⟨⟨_, h.entries⟩, _, h.summary⟩
  · rintro ⟨⟨es, hes⟩, s, hs⟩
    exact ⟨⟨r.metric, es, s⟩, rfl, hes, hs⟩

theorem Agree.mono {related' : Binary64 → Binary64 → Prop} (h : r.Agree related r')
    (himp : ∀ x y, related x y → related' x y) : r.Agree related' r' := by
  have hsummary := h.summary
  refine ⟨h.metric, h.entries.imp fun e e' he => ?_, ?_⟩
  · exact ⟨he.line, he.category, he.verdict, himp _ _ he.baseline, himp _ _ he.comparison,
      himp _ _ he.delta⟩
  · exact ⟨himp _ _ hsummary.better, himp _ _ hsummary.worse, himp _ _ hsummary.unchanged,
      himp _ _ hsummary.ratio⟩

/-- A finite double of the same sign at most two places away.  It is the same one if the digits
written for it and their power of ten are doubles. -/
def NearlyKept (x y : Binary64) : Prop :=
  ∃ negative a b, a < topRank ∧ b < topRank ∧ x = .ofRank negative a ∧ y = .ofRank negative b ∧
    Near b a ∧ ((Number.ofRank negative a).Exact → y = x)

theorem exists_reread_of_isFinite {x : Binary64} (h : x.isFinite = true) :
    ∃ y, Reread x y ∧ NearlyKept x y := by
  cases x with
  | nan => cases h
  | number negative rank hle =>
    have hlt : rank < topRank := of_decide_eq_true h
    obtain ⟨b, hb, hread, hnear, hexact⟩ := toBinary64?_ofRank negative hlt
    refine ⟨.ofRank negative b, ?_, negative, rank, b, hlt, hb, (ofRank_of_le _ _).symm, rfl, hnear,
      fun he => ?_⟩
    · rw [Reread, Value.ofBinary64, if_neg (Nat.ne_of_lt hlt)]
      exact hread
    · rw [hexact he, ofRank_of_le]

/-- What is not finite is written as null, which is no number. -/
theorem Reread.isFinite {x y : Binary64} (h : Reread x y) : x.isFinite = true := by
  cases x with
  | nan => cases h
  | number negative rank hle =>
    refine decide_eq_true (Nat.lt_of_le_of_ne hle fun heq => ?_)
    rw [Reread, Value.ofBinary64, if_pos heq] at h
    cases h

theorem Reread.nearlyKept {x y : Binary64} (h : Reread x y) : NearlyKept x y := by
  obtain ⟨z, hread, hkept⟩ := exists_reread_of_isFinite h.isFinite
  cases Option.some.inj (h.symm.trans hread)
  exact hkept

/-! ### Reports -/

variable (color : Bool)

theorem ofDocument?_render_iff (h : ∀ e ∈ r.entries, e.line < 2 ^ 64) :
    ofDocument? (r.render .json color) = some r' ↔ r.Agree Reread r' := by
  rw [render, ofDocument?_document blank_compact, ofValue?_toValue_iff h]

theorem isSome_ofDocument?_iff (h : ∀ e ∈ r.entries, e.line < 2 ^ 64) :
    (∃ r', ofDocument? (r.render .json color) = some r') ↔
      ∀ x ∈ r.doubles, x.isFinite = true := by
  simp only [ofDocument?_render_iff color h, exists_agree_iff]
  refine forall_congr' fun x => imp_congr_right fun _ => ⟨fun ⟨y, hy⟩ => hy.isFinite, fun hx => ?_⟩
  obtain ⟨y, hy, -⟩ := exists_reread_of_isFinite hx
  exact ⟨y, hy⟩

/-- A report is read back from both layouts if its doubles are finite, and from neither otherwise.
All but the doubles comes back as it was. -/
theorem read_back_iff_finite (h : ∀ e ∈ r.entries, e.line < 2 ^ 64) :
    ((∃ r', ofDocument? (r.render .json color) = some r') ↔
        ∀ x ∈ r.doubles, x.isFinite = true) ∧
      ofDocument? (r.render .jsonPretty color) = ofDocument? (r.render .json color) ∧
      ∀ r', ofDocument? (r.render .json color) = some r' →
        r'.metric = r.metric ∧
          List.Forall₂ (fun e e' =>
            e'.line = e.line ∧ e'.category = e.category ∧ e'.verdict = e.verdict)
            r.entries r'.entries := by
  refine ⟨isSome_ofDocument?_iff color h, ?_, fun r' hr' => ?_⟩
  · rw [render, render, ofDocument?_document blank_compact, ofDocument?_document blank_indented]
  · obtain ⟨hmetric, hentries, -⟩ := (ofDocument?_render_iff color h).mp hr'
    exact ⟨hmetric, hentries.imp fun e e' he => ⟨he.line, he.category, he.verdict⟩⟩

/-- The names hold what has to be escaped.  With a baseline that is not a number the report is not
read back. -/
theorem read_back_iff_finite_awkward :
    let entry : Entry := ⟨2 ^ 64 - 1, "\"q\\1\" \n\u0001é", .one, .zero, .infinity true, .worse⟩
    let summary : Summary := ⟨.zero, .one, .zero, .zero⟩
    let finite : Report := ⟨"", [{ entry with delta := -.one }], summary⟩
    let infinite : Report := ⟨"", [entry], summary⟩
    (∃ r', ofDocument? (finite.render .json false) = some r' ∧
        ofDocument? (finite.render .jsonPretty false) = some r' ∧
        List.Forall₂ (fun e e' => e'.category = e.category) finite.entries r'.entries) ∧
      ¬ ∃ r', ofDocument? (infinite.render .json false) = some r' := by
  intro entry summary finite infinite
  have hline : ∀ e ∈ finite.entries, e.line < 2 ^ 64 := by decide
  have hline' : ∀ e ∈ infinite.entries, e.line < 2 ^ 64 := by decide
  obtain ⟨hiff, hpretty, hrest⟩ := read_back_iff_finite false hline
  obtain ⟨hiff', -, -⟩ := read_back_iff_finite false hline'
  constructor
  · obtain ⟨r', hr'⟩ := hiff.mpr (by decide +kernel)
    exact ⟨r', hr', hpretty.trans hr', (hrest r' hr').2.imp fun _ _ he => he.2.1⟩
  · rw [hiff']
    decide +kernel

/-- Each finite double comes back with its sign and at most two places away. -/
theorem read_back_nearly_kept (h : ∀ e ∈ r.entries, e.line < 2 ^ 64)
    (hfinite : ∀ x ∈ r.doubles, x.isFinite = true) :
    ∃ r', ofDocument? (r.render .json color) = some r' ∧ r.Agree NearlyKept r' := by
  obtain ⟨r', hr'⟩ := (isSome_ofDocument?_iff color h).mpr hfinite
  exact ⟨r', hr', ((ofDocument?_render_iff color h).mp hr').mono fun _ _ => Reread.nearlyKept⟩

/-- The zero below zero, the smallest and the largest double, and a ratio of counts. -/
theorem read_back_nearly_kept_extremes :
    let entry : Entry :=
      ⟨1, "q1", .ofRank true 0, .ofRank false 1, .ofRank true (topRank - 1), .unchanged⟩
    let r : Report := ⟨"map", [entry], ⟨.one, .ofNat 11, .zero, .one / .ofNat 11⟩⟩
    (∀ e ∈ r.entries, e.line < 2 ^ 64) ∧ (∀ x ∈ r.doubles, x.isFinite = true) ∧
      ∃ r', ofDocument? (r.render .json false) = some r' ∧ r.Agree NearlyKept r' := by
  intro entry r
  have hline : ∀ e ∈ r.entries, e.line < 2 ^ 64 := by decide
  have hfinite : ∀ x ∈ r.doubles, x.isFinite = true := by decide +kernel
  exact ⟨hline, hfinite, read_back_nearly_kept false hline hfinite⟩

/-- One gain for eleven losses: their ratio comes back as the next double. -/
theorem ratio_one_to_eleven_moved :
    let r : Report := ⟨"map", [], ⟨.one, .ofNat 11, .zero, .one / .ofNat 11⟩⟩
    (∀ x ∈ r.doubles, x.isFinite = true) ∧
      (ofDocument? (r.render .json false)).map (·.summary.ratio.toBits) =
        some (r.summary.ratio.toBits + 1) := by
  intro r
  refine ⟨by decide +kernel, ?_⟩
  rw [render, ofDocument?_document blank_compact]
  decide +kernel

end Report
end EvalDiff
