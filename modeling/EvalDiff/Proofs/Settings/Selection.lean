import EvalDiff.Proofs.Settings.File

/-!
# Settings files that leave keys out

A settings file need not set every key, nor set them in a particular order, and it may set keys
that mean nothing to the program.
-/

namespace EvalDiff
namespace Settings

open Disk Toml

/-- A file with the saved lines of some keys, in whatever order, is loaded with the values of these
keys and the defaults of the others.  Lines between them that set other keys to strings or truth
values make no difference, however they are written, as long as none of these keys is set twice,
which no document may do. -/
theorem load_selected_keys {σ : Type} (disk : Disk (StateM σ)) (s : Settings) {keys : List Key}
    (hkeys : keys.Nodup) (path : String) (t t' : σ) :
    s.document = [Key.marker, .aggregate, .strict, .format].flatMap s.keyLine ∧
      ((disk.read path).run t = (.ok (Text.encode (keys.flatMap s.keyLine)), t') →
        Yields (load disk path) t (s.only keys) t') ∧
      ∀ cs others, SetsKeys s cs keys others →
        (disk.read path).run t = (.ok (Text.encode cs), t') →
          (others.Nodup → Yields (load disk path) t (s.only keys) t') ∧
          (¬ others.Nodup → Refuses (load disk path) t (.malformed path) t') := by
  refine ⟨s.document_eq, fun hread => ?_, fun cs others hcs hread => ⟨fun hothers => ?_, ?_⟩⟩
  · refine yields_load_iff.mpr ⟨_, hread, ?_⟩
    exact (s.setsKeys_flatMap keys).ofBytes_eq_ok path hkeys .nil
  · exact yields_load_iff.mpr ⟨_, hread, hcs.ofBytes_eq_ok path hkeys hothers⟩
  · intro hothers
    exact refuses_load hread (hcs.ofBytes_eq_error path fun h => hothers h.2)

/-- A value on several lines looks like a line that sets strict mode, and so does a comment. -/
theorem load_selected_keys_between_others :
    let s : Settings := { marker := "a\nstrict = true\n", aggregate := "x", format := .json }
    let fake := "\"strict \" = '''\nstrict = true\n'''\n".toList
    let remark := "\tx-1='''''' # strict = true\r\n".toList
    let t : Tree :=
      { nodes := [(["c.toml"], .file (Text.encode
          (fake ++ (s.keyLine .format ++ (remark ++ (s.keyLine .marker ++ []))))))]
        workingDirectory := [] }
    [Key.format, .marker].Nodup ∧
      Yields (load Tree.disk "c.toml") t
        { marker := "a\nstrict = true\n", aggregate := "all", strict := false, format := .json }
        t := by
  intro s fake remark t
  have hkeys : [Key.format, .marker].Nodup := by decide
  have hnone : Spaces [] := nofun
  have hspace : Spaces [' '] := List.forall_mem_singleton.mpr rfl
  have htab : Spaces ['\t'] := List.forall_mem_singleton.mpr rfl
  have hfake : SettingLine fake "strict " (.string "strict = true\n") := by
    have hvalue : Quotes.longLiteral.Holds "strict = true\n".toList :=
      ⟨fun _ => plain_or_newline rfl, by decide⟩
    exact .intro hnone (.basic (basicLine_basicText "strict ".toList)) hspace hspace
      (.string hvalue.quoted) (.plain hnone .newline)
  have hremark : SettingLine remark "x-1" (.string "") := by
    have hkey : IsBareKey "x-1" := ⟨by decide, by decide⟩
    have hvalue : Quotes.longLiteral.Holds [] := ⟨nofun, by decide⟩
    have htext : ∀ c ∈ " strict = true".toList, isPlain c = true := List.all_eq_true.mp rfl
    exact .intro htab (.bare hkey) hnone hnone (.string hvalue.quoted)
      (.comment hspace htext .withReturn)
  have hcs : SetsKeys s (fake ++ (s.keyLine .format ++ (remark ++ (s.keyLine .marker ++ []))))
      [.format, .marker] ["strict ", "x-1"] :=
    .other hfake (by intro key; cases key <;> decide) <| .key .format <|
      .other hremark (by intro key; cases key <;> decide) <| .key .marker .nil
  obtain ⟨-, -, hload⟩ := load_selected_keys Tree.disk s hkeys "c.toml" t t
  exact ⟨hkeys, (hload _ _ hcs rfl).1 (by decide)⟩

end Settings
end EvalDiff
