import SmlSynth.Proofs.Batches
import SmlSynth.Proofs.FileNames
import SmlSynth.Proofs.Numbers
import SmlSynth.Proofs.RoundTrip

/-!
# What a run writes

A run that succeeds has written each fixture of its batch to a file of its own, and then a manifest,
unless it was asked for none. Nothing else is touched, but for the output directory, which is made
if it is missing.

* `writeFixtures_cons_ok`, `writeBatch_ok`, `withArguments_ok`: what a run that succeeds has done,
  step by step.
* `writeFixtures_ok`: the loop over the fixtures leaves each one's text at its place.
* `Describes`: a manifest that tells the truth about a batch; `fits_ofEntries`: it is read back.
* `start_writes`: what is in the files after a run, and what is read from its manifest.
-/

namespace SmlSynth.Run

open FileTree

variable {σ : Type} [Source σ] {entropy : Entropy σ} {setting : Setting} {a : Arguments}
  {t t' : FileTree} {d : Place} {output : String} {seed : Int64} {fixtures : List Fixture}
  {lines shown log : List String} {entries : List FileEntry} {batch : Traced (List Fixture)}
  {finish : Finish}

/-! ## Step by step -/

/-- The name and the text of a fixture's file. -/
def fixtureFile (seed : Int64) (f : Fixture) : String × String :=
  (fileName seed f, String.ofList f.text)

/-- A fixture's entry in the manifest. -/
def fixtureEntry (seed : Int64) (f : Fixture) : FileEntry := .ofFixture (fileName seed f) f

/-- **One round of the loop over the fixtures**: the first file is written, and then the others. -/
theorem writeFixtures_cons_ok {f : Fixture}
    (h : t.perform (writeFixtures output seed (f :: fixtures)) = ((lines, .ok entries), t')) :
    ∃ t₁ lines' entries',
      t.write (Path.join output (fileName seed f)) (String.ofList f.text) = .ok t₁ ∧
      t₁.perform (writeFixtures output seed fixtures) = ((lines', .ok entries'), t') ∧
      entries = fixtureEntry seed f :: entries' := by
  rw [writeFixtures, perform_bind, perform_write] at h
  cases hwrite : t.write (Path.join output (fileName seed f)) (String.ofList f.text) with
  | error e => rw [hwrite] at h; cases h
  | ok t₁ =>
    rw [hwrite] at h
    simp only [perform_bind] at h
    rcases hrest : t₁.perform (writeFixtures output seed fixtures) with ⟨⟨lines', result⟩, t₂⟩
    rw [hrest] at h
    cases result with
    | error message => cases h
    | ok entries' => cases h; exact ⟨t₁, lines', entries', rfl, hrest, rfl⟩

/-- **The writing of a batch**: its fixtures, and then the manifest if one is wanted. -/
theorem writeBatch_ok
    (h : t.perform (writeBatch setting a seed shown log batch) = (finish, t'))
    (hcode : finish.code = 0) :
    ∃ fixtures lines entries t₁, batch.outcome = .ok fixtures ∧
      t.perform (writeFixtures a.output seed fixtures) = ((lines, .ok entries), t₁) ∧
      if a.noManifest then t' = t₁
      else t₁.write (Path.join a.output Manifest.fileName)
        (Manifest.ofEntries seed a.selector.name a.profile setting.now.toNat entries).text = .ok t' := by
  unfold writeBatch at h
  cases hbatch : batch.outcome with
  | error fault => rw [hbatch] at h; cases h; cases hcode
  | ok fixtures =>
    rw [hbatch] at h
    simp only [perform_bind] at h
    rcases hfiles : t.perform (writeFixtures a.output seed fixtures) with ⟨⟨lines, result⟩, t₁⟩
    rw [hfiles] at h
    cases result with
    | error message => cases h; cases hcode
    | ok entries =>
      refine ⟨fixtures, lines, entries, t₁, rfl, hfiles, ?_⟩
      simp only at h
      by_cases hno : a.noManifest = true
      · rw [if_pos hno] at h ⊢
        cases h; rfl
      · rw [if_neg hno, perform_bind, writeManifest, perform_write] at h
        rw [if_neg hno]
        split at h
        · rename_i t₂ hwrite
          cases h; exact hwrite
        · cases h; cases hcode

/-- Looking up a profile changes no file. -/
theorem lookup_keeps (t : FileTree) (name : String) : (t.perform (Profile.lookup name)).2 = t := by
  unfold Profile.lookup
  split
  · rw [perform_bind, perform_read]
    cases t.read name <;> rfl
  · rfl

/-- **A run with well-formed arguments**: they are sound, the profile is there, the output directory
is made, and the batch is written. -/
theorem withArguments_ok (h : t.perform (withArguments entropy setting log a) = (finish, t'))
    (hcode : finish.code = 0) :
    a.fault? = none ∧ ∃ profile t₁ shown,
      t.perform (Profile.lookup a.profile) = (.ok profile, t) ∧
      t.perform (FileSystem.makeDirs a.output) = (.ok (), t₁) ∧
      t₁.perform (writeBatch setting a (a.seed.getD setting.freshSeed) shown log
        (generateBatch entropy a.count (a.seed.getD setting.freshSeed) a.selector profile))
          = (finish, t') := by
  unfold withArguments at h
  cases hfault : a.fault? with
  | some message => rw [hfault] at h; cases h; cases hcode
  | none =>
    refine ⟨rfl, ?_⟩
    rw [hfault] at h
    simp only [perform_bind] at h
    have hsame := lookup_keeps t a.profile
    rcases hlookup : t.perform (Profile.lookup a.profile) with ⟨result, t₀⟩
    rw [hlookup] at h hsame
    obtain rfl : t₀ = t := hsame
    cases result with
    | error e => cases h; cases hcode
    | ok profile =>
      simp only [perform_bind] at h
      rcases hdirs : t₀.perform (FileSystem.makeDirs a.output) with ⟨result, t₁⟩
      rw [hdirs] at h
      cases result with
      | error fault => cases h; cases hcode
      | ok => exact ⟨profile, t₁, _, rfl, rfl, h⟩

/-! ## The files after the loop -/

/-- **The loop over the fixtures leaves each one's text at its place**, under their different names,
and yields their entries. -/
theorem writeFixtures_ok (hd : t.walk output = .ok d)
    (hnames : (fixtures.map (fileName seed)).Nodup)
    (h : t.perform (writeFixtures output seed fixtures) = ((lines, .ok entries), t')) :
    Written output d (fixtures.map (fixtureFile seed)) t t' ∧
      entries = fixtures.map (fixtureEntry seed) := by
  induction fixtures generalizing t lines entries with
  | nil => cases h; exact ⟨written_nil, rfl⟩
  | cons f rest ih =>
    obtain ⟨t₁, lines', entries', hwrite, hrest, rfl⟩ := writeFixtures_cons_ok h
    rw [List.map_cons, List.nodup_cons] at hnames
    have hfirst := written_of_write (plain_fileName seed f) hd hwrite
    -- the directory is still where it was
    obtain ⟨hwritten, rfl⟩ := ih (walk_of_keeps hfirst.keeps hd) hnames.2 hrest
    refine ⟨hfirst.append hwritten fun file hfile file' hfile' hname => hnames.1 ?_, rfl⟩
    obtain ⟨f', hf', rfl⟩ := List.mem_map.1 hfile'
    rw [List.mem_singleton.1 hfile] at hname
    exact List.mem_map.2 ⟨f', hf', hname.symm⟩

/-- Where the first file was written, there is the directory. -/
theorem walk_of_writeFixtures (hne : fixtures ≠ [])
    (h : t.perform (writeFixtures output seed fixtures) = ((lines, .ok entries), t')) :
    ∃ d, t.walk output = .ok d := by
  obtain ⟨f, rest, rfl⟩ := List.exists_cons_of_ne_nil hne
  obtain ⟨t₁, -, -, hwrite, -⟩ := writeFixtures_cons_ok h
  obtain ⟨p, hp, -⟩ := of_write hwrite
  obtain ⟨d, hd, -⟩ := walk_join (plain_fileName seed f) (walk_of_resolve hp)
  exact ⟨d, hd⟩

/-- **The files of a batch have different names**, and none is that of the manifest. -/
theorem nodup_fileNames {profile : Profile} {count : Nat} {first : Int64} {selector : Selector}
    (h : (generateBatch entropy count first selector profile).outcome = .ok fixtures)
    (seed : Int64) : (fixtures.map (fileName seed) ++ [Manifest.fileName]).Nodup := by
  have hindex : (fixtures.map (·.index)).Nodup := map_index_generateBatch h ▸ List.nodup_range
  have hnames : (fixtures.map (fileName seed)).Nodup := by
    unfold List.Nodup at hindex ⊢
    rw [List.pairwise_map] at hindex ⊢
    exact hindex.imp fun hne hname => hne (fileName_inj hname).1
  have hlast : [Manifest.fileName].Nodup := List.pairwise_singleton _ _
  refine List.nodup_append.2 ⟨hnames, hlast, fun name hname name' hname' => ?_⟩
  obtain ⟨f, -, rfl⟩ := List.mem_map.1 hname
  rw [List.mem_singleton.1 hname']
  exact fileName_ne_manifest seed f

/-! ## The manifest -/

/-- **A manifest that tells the truth** about the files of a batch. It counts its entries, one for
each fixture. An entry has the fixture's tier and seed, and the name and the length of its file;
what the name says are the fixture's number, that length, and the seed of the batch. -/
structure Describes (manifest : Manifest) (a : Arguments) (base : Int64)
    (fixtures : List Fixture) : Prop where
  seed : manifest.seed = base
  selector : manifest.selector = a.selector.name
  profile : manifest.profile = a.profile
  count : manifest.count = manifest.files.length
  length : manifest.files.length = fixtures.length
  entry : ∀ (i : Nat) (f : Fixture) (e : FileEntry),
    fixtures[i]? = some f → manifest.files[i]? = some e → e.file = (fixtureFile base f).1 ∧
      e.tier = f.tier ∧ e.seed = f.seed ∧ e.length = (fixtureFile base f).2.length ∧
      readFileName? e.file = some (f.index + 1, e.length, base)

theorem describes_ofEntries (a : Arguments) (seed : Int64) (now : Nat) (fixtures : List Fixture) :
    Describes (Manifest.ofEntries seed a.selector.name a.profile now
      (fixtures.map (fixtureEntry seed))) a seed fixtures := by
  refine ⟨rfl, rfl, rfl, rfl, List.length_map _, fun i f e hf he => ?_⟩
  have hentry : (fixtures.map (fixtureEntry seed))[i]? = some e := he
  rw [List.getElem?_map, hf] at hentry
  obtain rfl : fixtureEntry seed f = e := Option.some.inj hentry
  exact ⟨rfl, rfl, rfl, String.length_ofList.symm, readFileName?_fileName seed f⟩

/-- The numbers of a batch's manifest are words, if its size and the lengths of its texts are. -/
theorem fits_ofEntries (seed : Int64) (selector profile : String) (now : UInt64)
    (hcount : fixtures.length < wordCount) (hlength : ∀ f ∈ fixtures, f.text.length < wordCount) :
    (Manifest.ofEntries seed selector profile now.toNat
      (fixtures.map (fixtureEntry seed))).Fits where
  count := by
    show (fixtures.map (fixtureEntry seed)).length < wordCount
    rwa [List.length_map]
  generatedAt := now.toNat_lt
  length e he := by
    obtain ⟨f, hf, rfl⟩ := List.mem_map.1 he
    exact hlength f hf

/-! ## The answer -/

/-- **A run that succeeds loses nothing, and its manifest is true.** The arguments ask for at least
one fixture, and the run has the batch that they ask for, under the profile that they name. The
output directory is made if it is missing; if it is there, no directory is made. Then the files are
written: those of the fixtures, under different names, and the manifest under one more, unless none
is wanted. Each has its text, and all other places are as they were. The text of the manifest says
what the manifest does, so that this is what is read from the directory afterwards. The names for
another seed are all different. -/
theorem start_writes {args : List String} (hargs : Arguments.parse args = .ok a)
    (hrun : t.perform (start entropy setting args) = (finish, t')) (hcode : finish.code = 0) :
    let seed := a.seed.getD setting.freshSeed
    ∃ profile fixtures manifest directory t₁,
      t.perform (Profile.lookup a.profile) = (.ok profile, t) ∧
      (generateBatch entropy a.count seed a.selector profile).outcome = .ok fixtures ∧
      fixtures.length = a.count ∧ 0 < a.count ∧
      Extends t t₁ ∧
      (∀ p, t.resolve a.output = .ok p → t.get? p = some .directory → t₁ = t) ∧
      (fixtures.map (fileName seed) ++ [Manifest.fileName]).Nodup ∧
      Written a.output directory
        (fixtures.map (fixtureFile seed) ++
          if a.noManifest then [] else [(Manifest.fileName, manifest.text)]) t₁ t' ∧
      Describes manifest a seed fixtures ∧
      Manifest.ofText? manifest.text = some manifest ∧
      (a.noManifest = false →
        t'.perform (readManifest a.output) = (.ok (some manifest), t')) ∧
      ∀ seed' f f', seed' ≠ seed → fileName seed' f' ≠ fileName seed f := by
  intro seed
  rw [start, hargs] at hrun
  obtain ⟨hfault, profile, t₁, shown, hlookup, hdirs, hbatch⟩ := withArguments_ok hrun hcode
  obtain ⟨fixtures, lines, entries, t₂, hfixtures, hfiles, hmanifest⟩ := writeBatch_ok hbatch hcode
  have hlength : fixtures.length = a.count := (generateBatch_ok_iff.1 hfixtures).1
  have hcount : 0 < a.count := by
    unfold Arguments.fault? at hfault
    split at hfault
    · cases hfault
    · omega
  have hne : fixtures ≠ [] := List.length_pos_iff.1 (hlength ▸ hcount)
  have hnames := nodup_fileNames hfixtures seed
  obtain ⟨hnodup, -, hother⟩ := List.nodup_append.1 hnames
  obtain ⟨d, hd⟩ := walk_of_writeFixtures hne hfiles
  obtain ⟨hwritten, rfl⟩ := writeFixtures_ok hd hnodup hfiles
  have hextends : Extends t t₁ := by
    have h := makesOnly_makeDirs a.output t
    rwa [hdirs] at h
  -- all that the manifest counts is held by a word
  have hprofile : profile.maxLengths.Fits :=
    (Profile.lookup_ok_iff.1 (congrArg Prod.fst hlookup)).fits
  have hfits := fits_ofEntries seed a.selector.name a.profile setting.now
    (hlength ▸ Arguments.count_lt_of_parse hargs) (length_of_generateBatch hfixtures hprofile)
  refine ⟨profile, fixtures, _, d, t₁, hlookup, hfixtures, hlength, hcount, hextends,
    fun p hp hp' => ?_, hnames, ?_, describes_ofEntries a seed setting.now.toNat fixtures,
    Manifest.ofText?_text hfits, fun hno => ?_,
    fun seed' f f' hseed hname => hseed (fileName_inj hname).2.2⟩
  · rw [perform_makeDirs hp hp'] at hdirs
    exact (congrArg Prod.snd hdirs).symm
  · split
    · rename_i hno
      rw [if_pos hno] at hmanifest
      rw [List.append_nil, hmanifest]
      exact hwritten
    · rename_i hno
      rw [if_neg hno] at hmanifest
      -- the manifest is written last, under a name of its own
      have hlast := written_of_write plain_manifest (walk_of_keeps hwritten.keeps hd) hmanifest
      refine hwritten.append hlast fun file hfile file' hfile' => ?_
      obtain ⟨f, -, rfl⟩ := List.mem_map.1 hfile
      rw [List.mem_singleton.1 hfile']
      exact fileName_ne_manifest seed f
  · have hwanted : ¬ a.noManifest = true := by
      rw [hno]
      exact Bool.false_ne_true
    rw [if_neg hwanted] at hmanifest
    exact readManifest_of_write hfits hmanifest

/-- Two fixtures from a negative seed on, in a directory with a file of its own, and the manifest that
is read there. -/
theorem start_writes_two :
    let entropy : Entropy Tape := ⟨fun _ => Tape.constant 0, 0⟩
    let t : FileTree := ⟨[(["out"], .directory), (["out", "keep.txt"], .file (.text "k"))]⟩
    let a : Arguments := { count := 2, seed := some (-7), output := "out" }
    let args := ["-n", "2", "-s", "-7", "-o", "out"]
    let run := t.perform (start entropy ⟨[], 0, 0⟩ args)
    Arguments.parse args = .ok a ∧ run.1.code = 0 ∧
      ∃ fixtures manifest directory, fixtures.length = 2 ∧
        Written "out" directory
          (fixtures.map (fixtureFile (-7)) ++ [(Manifest.fileName, manifest.text)]) t run.2 ∧
        Describes manifest a (-7) fixtures ∧
        run.2.perform (readManifest "out") = (.ok (some manifest), run.2) := by
  intro entropy t a args run
  have hargs : Arguments.parse args = .ok a := by decide +kernel
  have hcode : run.1.code = 0 := by decide +kernel
  have hplace : t.resolve a.output = .ok ["out"] := by decide +kernel
  have hthere : t.get? ["out"] = some .directory := by decide +kernel
  obtain ⟨-, fixtures, manifest, d, t₁, -, -, hlength, -, -, hsame, -, hwritten, hdescribes, -, hread,
    -⟩ := start_writes hargs (Prod.eta run).symm hcode
  -- the directory is there, and so is not made
  rw [hsame _ hplace hthere] at hwritten
  exact ⟨hargs, hcode, fixtures, manifest, d, hlength, hwritten, hdescribes, hread rfl⟩

end SmlSynth.Run
