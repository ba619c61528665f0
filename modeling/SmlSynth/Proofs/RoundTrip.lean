import Mathlib.Data.List.Nodup
import SmlSynth.Proofs.Printed

/-!
# Manifests come back from their files

A record is read back from its members, each field from its value, and so the whole of a manifest
from its text. A manifest that was written to a directory is the one that is read there.

* `Json.fields?_record`: the fields of a record are its values.
* `FileEntry.ofJson?_toJson`, `Manifest.ofJson?_toJson`: records are read back.
* `Manifest.Fits`: the manifests whose numbers are words; `fits_of_ofJson?`: those that are read.
* `Run.manifest_round_trip`: what is written to a directory is read there.
-/

namespace SmlSynth

namespace Json

/-! ## Fields -/

theorem asString?_str (s : String) : asString? (.str s) = some s :=
  congrArg some String.ofList_toList

/-- **An integer is read back from its numeral.** -/
theorem asInt?_int (i : Int) : asInt? (.int i) = some i := by
  cases i with
  | ofNat n =>
    show integer? (Nat.toDigits 10 n) = _
    rw [integer?, Digits.natural?_toDigits]
    · rfl
    · rintro ds hds
      exact notMem_toDigits rfl n (hds ▸ List.mem_cons_self ..)
  | negSucc n =>
    show integer? ('-' :: Nat.toDigits 10 (n + 1)) = _
    rw [integer?, Digits.natural?_toDigits]

theorem asInt64?_int (x : Int64) : asInt64? (.int x.toInt) = some x := by
  rw [asInt64?, asInt?_int]
  exact int64?_toInt x

theorem asNat?_nat {n : Nat} (h : n < wordCount) : asNat? (.nat n) = some n := by
  have hint : asInt? (.nat n) = some (.ofNat n) := asInt?_int n
  rw [asNat?, hint]
  exact if_pos h

/-- Items that are written one by one are read one by one. -/
theorem mapM_map {α β γ : Type} {read : β → Option γ} {write : α → β} {result : α → γ}
    {xs : List α} (h : ∀ x ∈ xs, read (write x) = some (result x)) :
    (xs.map write).mapM read = some (xs.map result) := by
  induction xs with
  | nil => rfl
  | cons x xs ih =>
    rw [List.map_cons, List.mapM_cons, h x (List.mem_cons_self ..),
      ih fun y hy => h y (List.mem_cons_of_mem _ hy)]
    rfl

theorem asList?_map {α : Type} {item? : Value → Option α} {toJson : α → Value} {xs : List α}
    (h : ∀ x ∈ xs, item? (toJson x) = some x) :
    asList? item? (.array (xs.map toJson)) = some xs := by
  rw [asList?, mapM_map h, List.map_id']

/-- **The fields of a record are its values**, if no two have one name. -/
theorem fields?_record {names : List String} {members : List (String × Value)}
    (hnames : members.map (·.1) = names) (h : names.Nodup) :
    fields? names (.record members) = some (members.map fun m => some m.2) := by
  subst hnames
  -- texts differ as names do, so that no field occurs twice and each is found where it stands
  have hkeys : ((members.map fun m => (m.1.toList, m.2)).map (·.1)).Nodup := by
    rw [List.map_map]
    have hnames := h.map (f := String.toList) fun _ _ => String.toList_inj.1
    rwa [List.map_map] at hnames
  have hmembers : (members.map fun m => (some m.1.toList, m.2)).mapM
      (fun m => m.1.map fun key => (key, m.2)) = some (members.map fun m => (m.1.toList, m.2)) :=
    mapM_map fun _ _ => rfl
  have hdistinct : distinctFields ((members.map (·.1)).map String.toList)
      ((members.map fun m => (m.1.toList, m.2)).map (·.1)) = true :=
    List.all_eq_true.2 fun name _ => decide_eq_true (List.nodup_iff_count_le_one.1 hkeys name)
  rw [Value.record, fields?, hmembers]
  simp only [Option.bind_eq_bind, Option.bind_some]
  rw [if_pos hdistinct, List.map_map, List.map_map]
  refine congrArg some (List.map_congr_left fun m hm => ?_)
  exact (lookup_iff_mem hkeys).2 (List.mem_map.2 ⟨m, hm, rfl⟩)

theorem exact_nat (n : Nat) : Exact (.nat n) := .int n

theorem exact_str (s : String) : Exact (.str s) := .text s.toList

theorem exact_record {members : List (String × Value)} (h : ∀ m ∈ members, Exact m.2) :
    Exact (.record members) := by
  have hmembers : (members.map fun m => (some m.1.toList, m.2)) =
      (members.map fun m => (m.1.toList, m.2)).map fun m => (some m.1, m.2) := by
    rw [List.map_map]
    rfl
  rw [Value.record, hmembers]
  refine .object fun m hm => ?_
  obtain ⟨n, hn, rfl⟩ := List.mem_map.1 hm
  exact h n hn

/-! ## Words -/

theorem lt_of_asNat? {v : Value} {n : Nat} (h : asNat? v = some n) : n < wordCount := by
  obtain ⟨i, -, hi⟩ := Option.bind_eq_some_iff.1 h
  cases i with
  | ofNat k =>
    obtain ⟨hk, hn⟩ := Option.ite_none_right_eq_some.1 hi
    exact Option.some.inj hn ▸ hk
  | negSucc k => cases hi

/-- Every item that is read is that of a value. -/
theorem exists_of_mem_mapM {α β : Type} {read : α → Option β} {xs : List α} {ys : List β}
    (h : xs.mapM read = some ys) : ∀ y ∈ ys, ∃ x, read x = some y := by
  induction xs generalizing ys with
  | nil => cases h; rintro _ ⟨⟩
  | cons x xs ih =>
    rw [List.mapM_cons] at h
    obtain ⟨z, hz, h⟩ := Option.bind_eq_some_iff.1 h
    obtain ⟨zs, hzs, h⟩ := Option.bind_eq_some_iff.1 h
    cases h
    rintro y (_ | ⟨_, hy⟩)
    · exact ⟨x, hz⟩
    · exact ih hzs y hy

theorem exists_of_mem_asList? {α : Type} {item? : Value → Option α} {v : Value} {xs : List α}
    (h : asList? item? v = some xs) : ∀ x ∈ xs, ∃ w, item? w = some x := by
  unfold asList? at h
  split at h
  · exact exists_of_mem_mapM h
  · cases h

end Json

open Json

/-! ## Entries -/

theorem Tier.ofJson?_toJson (t : Tier) : Tier.ofJson? t.toJson = some t := by
  cases t <;> decide

theorem FileEntry.exact_toJson (e : FileEntry) : Exact e.toJson := by
  refine exact_record fun m hm => ?_
  simp only [List.mem_cons, List.not_mem_nil, or_false] at hm
  rcases hm with rfl | rfl | rfl | rfl
  · exact exact_str _
  · exact exact_str _
  · exact .int _
  · exact exact_nat _

theorem FileEntry.ofJson?_toJson {e : FileEntry} (h : e.length < wordCount) :
    FileEntry.ofJson? e.toJson = some e := by
  have hfields : fields? FileEntry.fieldNames e.toJson = _ := fields?_record rfl (by decide)
  rw [FileEntry.ofJson?, hfields]
  simp only [List.map_cons, List.map_nil, Option.bind_eq_bind, Option.bind_some, required,
    asString?_str, Tier.ofJson?_toJson, asInt64?_int, asNat?_nat h]
  rfl

/-- An entry that is read has a length that a word holds. -/
theorem FileEntry.length_of_ofJson? {v : Value} {e : FileEntry}
    (h : FileEntry.ofJson? v = some e) : e.length < wordCount := by
  unfold FileEntry.ofJson? at h
  obtain ⟨fields, -, h⟩ := Option.bind_eq_some_iff.1 h
  split at h
  · simp only [required, Option.bind_eq_bind, Option.bind_eq_some_iff] at h
    obtain ⟨_, -, _, -, _, -, _, ⟨_, -, hlength⟩, h⟩ := h
    cases h
    exact lt_of_asNat? hlength
  · cases h

/-! ## Manifests -/

namespace Manifest

/-- **A manifest whose numbers are words**: its count, its time, and the lengths of its files. -/
structure Fits (m : Manifest) : Prop where
  count : m.count < wordCount
  generatedAt : m.generatedAt < wordCount
  length : ∀ e ∈ m.files, e.length < wordCount

theorem exact_toJson (m : Manifest) : Exact m.toJson := by
  refine exact_record fun member hmember => ?_
  simp only [List.mem_cons, List.not_mem_nil, or_false] at hmember
  rcases hmember with rfl | rfl | rfl | rfl | rfl | rfl | rfl
  · exact exact_str _
  · exact .int _
  · exact exact_str _
  · exact exact_str _
  · exact exact_nat _
  · exact exact_nat _
  · refine .array fun v hv => ?_
    obtain ⟨e, -, rfl⟩ := List.mem_map.1 hv
    exact e.exact_toJson

theorem ofJson?_toJson {m : Manifest} (h : m.Fits) : ofJson? m.toJson = some m := by
  have hfields : fields? fieldNames m.toJson = _ := fields?_record rfl (by decide)
  have hfiles : asList? FileEntry.ofJson? (.array (m.files.map FileEntry.toJson)) = some m.files :=
    asList?_map fun e he => FileEntry.ofJson?_toJson (h.length e he)
  rw [ofJson?, hfields]
  simp only [List.map_cons, List.map_nil, Option.bind_eq_bind, Option.bind_some, required,
    asString?_str, asInt64?_int, asNat?_nat h.count, asNat?_nat h.generatedAt, hfiles]
  rfl

/-- **Every manifest that is read fits.** -/
theorem fits_of_ofJson? {v : Value} {m : Manifest} (h : ofJson? v = some m) : m.Fits := by
  unfold ofJson? at h
  obtain ⟨fields, -, h⟩ := Option.bind_eq_some_iff.1 h
  split at h
  · simp only [required, Option.bind_eq_bind, Option.bind_eq_some_iff] at h
    obtain ⟨_, -, _, -, _, -, _, -, _, ⟨_, -, hcount⟩, _, ⟨_, -, htime⟩, _, ⟨_, -, hfiles⟩, h⟩ := h
    cases h
    refine ⟨lt_of_asNat? hcount, lt_of_asNat? htime, fun e he => ?_⟩
    -- each file of the list was read as an entry
    obtain ⟨_, hentry⟩ := exists_of_mem_asList? hfiles e he
    exact FileEntry.length_of_ofJson? hentry
  · cases h

/-- **A manifest is read back from its text.** -/
theorem ofText?_text {m : Manifest} (h : m.Fits) : ofText? m.text = some m := by
  rw [ofText?, text, String.toList_ofList, read?_pretty m.exact_toJson, Option.bind_some,
    ofJson?_toJson h]

end Manifest

/-! ## Files -/

namespace Run

open FileTree

/-- A manifest can be written where its path leads and there is no directory. -/
theorem writeManifest_ok_iff (m : Manifest) (output : String) (t : FileTree) :
    (t.perform (writeManifest output m)).1 = .ok () ↔
      ∃ p, t.resolve (Path.join output Manifest.fileName) = .ok p ∧
        t.get? p ≠ some .directory := by
  rw [writeManifest, perform_write]
  constructor
  · intro hok
    cases hwrite : t.write (Path.join output Manifest.fileName) m.text with
    | error fault => rw [hwrite] at hok; cases hok
    | ok t' =>
      obtain ⟨p, hp, hne, -⟩ := of_write hwrite
      exact ⟨p, hp, hne⟩
  · rintro ⟨p, hp, hne⟩
    rw [write_of_resolve (Path.meansDirectory_join plain_manifest) hp hne]

/-- **Where a manifest's text was written, the manifest is read.** -/
theorem readManifest_of_write {m : Manifest} (h : m.Fits) {output : String} {t t' : FileTree}
    (hwrite : t.write (Path.join output Manifest.fileName) m.text = .ok t') :
    t'.perform (readManifest output) = (.ok (some m), t') := by
  rw [readManifest, perform_bind, perform_read,
    read_of_write (Path.meansDirectory_join plain_manifest) hwrite]
  show (Except.ok (Manifest.ofText? m.text), t') = _
  rw [Manifest.ofText?_text h]

/-- What is read after a manifest was written is the manifest. -/
theorem readManifest_of_writeManifest {m : Manifest} (h : m.Fits) {output : String}
    {t t' : FileTree} (hwrite : t.perform (writeManifest output m) = (.ok (), t')) :
    t'.perform (readManifest output) = (.ok (some m), t') := by
  rw [writeManifest, perform_write] at hwrite
  split at hwrite
  · rename_i t₁ hwritten
    cases hwrite
    exact readManifest_of_write h hwritten
  · cases hwrite

/-- **The manifest that was written to a directory is the one that is read there**, whatever its
texts are and however many files it lists, and no file is touched by reading it. It can be written
unless the path of its file leads nowhere or to a directory. Only the numbers have to be words, as
they are in all that is ever read. -/
theorem manifest_round_trip {m : Manifest} (h : m.Fits) (output : String) (t : FileTree) :
    Manifest.ofText? m.text = some m ∧
    (∀ t', t.perform (writeManifest output m) = (.ok (), t') →
      t'.perform (readManifest output) = (.ok (some m), t')) ∧
    ((t.perform (writeManifest output m)).1 = .ok () ↔
      ∃ p, t.resolve (Path.join output Manifest.fileName) = .ok p ∧
        t.get? p ≠ some .directory) ∧
    ∀ text m', Manifest.ofText? text = some m' → m'.Fits := by
  refine ⟨Manifest.ofText?_text h, fun t' => readManifest_of_writeManifest h,
    writeManifest_ok_iff m output t, fun text m' hread => ?_⟩
  obtain ⟨v, -, hv⟩ := Option.bind_eq_some_iff.1 hread
  exact Manifest.fits_of_ofJson? hv

/-- Texts with all that is escaped and a character beyond the first plane, the least seed, and the
greatest words, in place of a file that was there. -/
theorem manifest_round_trip_escaped :
    let m : Manifest :=
      { version := "\x00\x08\x0c\n\r\t\x1f\x7f", seed := Int64.minValue
        selector := "\\\"/\\u0041"
        profile := "é\u2028😀", count := 0xFFFFFFFFFFFFFFFF, generatedAt := 0xFFFFFFFFFFFFFFFF
        files := [⟨"", .minimal, Int64.maxValue, 0xFFFFFFFFFFFFFFFF⟩, ⟨"a\nb.sml", .extreme, -1, 0⟩] }
    let t : FileTree := ⟨[(["out"], .directory), (["out", "smlgen.json"], .file (.text "old"))]⟩
    (t.perform (writeManifest "out" m)).1 = .ok () ∧
      (t.perform (writeManifest "out" m)).2.perform (readManifest "out") =
        (.ok (some m), (t.perform (writeManifest "out" m)).2) := by
  intro m t
  have hfits : m.Fits := ⟨by decide, by decide, by decide⟩
  obtain ⟨-, hread, hwrite, -⟩ := manifest_round_trip hfits "out" t
  have hok := hwrite.2 ⟨["out", "smlgen.json"], by decide +kernel, by decide +kernel⟩
  exact ⟨hok, hread _ (Prod.ext hok rfl)⟩

end Run

end SmlSynth
