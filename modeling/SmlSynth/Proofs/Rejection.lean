import SmlSynth.Proofs.Profiles
import SmlSynth.Proofs.Writing

/-!
# Rejected command lines

A run looks at its arguments and then for its profile before it changes anything. Where it stops at
either, the files are as they were.

* `Run.RejectedFor`: the message that a command line is rejected with.
* `start_rejected`: a rejected command line changes nothing, and any other is gone on with.
-/

namespace SmlSynth

open FileTree

namespace Run

variable {σ : Type} [Source σ] {entropy : Entropy σ} {setting : Setting} {a : Arguments}
  {t : FileTree} {log : List String} {message : String}

/-! ## Rejection -/

/-- **The message that a command line is rejected with** in a file tree. The count is examined
first. -/
inductive RejectedFor (t : FileTree) (a : Arguments) : String → Prop where
  | count (zero : a.count = 0) : RejectedFor t a "error: --count must be greater than 0\n"
  | profile (e : ProfileError) (positive : 0 < a.count)
      (missing : Profile.MissingAt t a.profile e) : RejectedFor t a e.report.render

theorem exists_rejectedFor (h : a.count = 0 ∨ ∃ e, Profile.MissingAt t a.profile e) :
    ∃ message, RejectedFor t a message := by
  rcases Nat.eq_zero_or_pos a.count with hzero | hpos
  · exact ⟨_, .count hzero⟩
  · obtain ⟨e, he⟩ := h.resolve_left (Nat.ne_of_gt hpos)
    exact ⟨_, .profile e hpos he⟩

/-- A seed that was not given is shown. -/
def seedLines (setting : Setting) (a : Arguments) : List String :=
  match a.seed with
  | some _ => []
  | none => ["Using random seed: " ++ toString setting.freshSeed.toInt ++ "\n"]

/-- **A run that is rejected shows the message and changes no file.** -/
theorem withArguments_rejected (entropy : Entropy σ) (setting : Setting) (log : List String)
    (h : RejectedFor t a message) : ∃ shown,
    t.perform (withArguments entropy setting log a) = (⟨1, shown, log ++ [message]⟩, t) := by
  cases h with
  | count zero =>
    refine ⟨[], ?_⟩
    rw [withArguments, Arguments.fault?, if_pos zero]
    rfl
  | profile e positive missing =>
    refine ⟨seedLines setting a, ?_⟩
    rw [withArguments, Arguments.fault?, if_neg (Nat.ne_of_gt positive)]
    simp only [perform_bind]
    rw [lookup_keeps, Profile.lookup_error_iff.2 missing]
    cases hseed : a.seed <;> simp only [seedLines, hseed] <;> rfl

/-- What a run goes on with once it has its profile: its output directory is made, and then the
batch is written. -/
def produced (entropy : Entropy σ) (setting : Setting) (log : List String) (a : Arguments)
    (profile : Profile) (t : FileTree) : Finish × FileTree :=
  let seed := a.seed.getD setting.freshSeed
  match t.perform (FileSystem.makeDirs a.output) with
  | (.error fault, t₁) => (⟨1, seedLines setting a, log ++ ["error: failed to create output " ++
      "directory '" ++ a.output ++ "': " ++ fault.message ++ "\n"]⟩, t₁)
  | (.ok (), t₁) => t₁.perform (writeBatch setting a seed (seedLines setting a) log
      (generateBatch entropy a.count seed a.selector profile))

/-- **A run that is not rejected goes on** to its output directory and its batch. -/
theorem withArguments_accepted {profile : Profile} (hcount : 0 < a.count)
    (hprofile : Profile.IsAt t a.profile profile) :
    t.perform (withArguments entropy setting log a) =
      produced entropy setting log a profile t := by
  rw [withArguments, Arguments.fault?, if_neg (Nat.ne_of_gt hcount)]
  simp only [perform_bind]
  rw [lookup_keeps, Profile.lookup_ok_iff.2 hprofile]
  simp only [perform_bind]
  rw [produced]
  rcases t.perform (FileSystem.makeDirs a.output) with ⟨result, t₁⟩
  cases hseed : a.seed <;> cases result <;> simp only [seedLines, hseed] <;> rfl

/-! ## The answer -/

/-- **A rejected command line leaves the files as they were.** Where the count is zero or looking up
the profile fails, the run ends with the code of a failure and a message that says which it was, and
the file tree is the same as before. The same holds where the arguments are not understood. Where
neither is wrong, the run goes on to its output directory.

Looking up a name that is a path yields the profile in that file, or fails as the file cannot be
read, is not in the format, or has a field of a wrong type. For any other name it yields the profile
of that name that comes with the program, or fails and lists those that do, whatever the files
are. -/
theorem start_rejected (entropy : Entropy σ) (setting : Setting) (t : FileTree) :
    (∀ args a, Arguments.parse args = .ok a →
      (a.count = 0 ∨ ∃ e, (t.perform (Profile.lookup a.profile)).1 = .error e) →
      ∃ message shown log, RejectedFor t a message ∧
        t.perform (start entropy setting args) = (⟨1, shown, log ++ [message]⟩, t)) ∧
    (∀ args halt, Arguments.parse args = .error halt →
      (t.perform (start entropy setting args)).2 = t) ∧
    (∀ args a profile, Arguments.parse args = .ok a → 0 < a.count →
      (t.perform (Profile.lookup a.profile)).1 = .ok profile →
      ∃ log, t.perform (start entropy setting args) =
        produced entropy setting log a profile t) ∧
    (∀ name profile,
      (t.perform (Profile.lookup name)).1 = .ok profile ↔ Profile.IsAt t name profile) ∧
    (∀ name e, (t.perform (Profile.lookup name)).1 = .error e ↔ Profile.MissingAt t name e) ∧
    (∀ name, ¬ IsPath name → ∀ t' : FileTree,
      (t'.perform (Profile.lookup name)).1 = (t.perform (Profile.lookup name)).1) := by
  refine ⟨fun args a hargs hrejected => ?_, fun args halt hhalt => ?_,
    fun args a profile hargs hcount hprofile => ?_, fun _ _ => Profile.lookup_ok_iff,
    fun _ _ => Profile.lookup_error_iff, fun name hname t' => ?_⟩
  · simp only [Profile.lookup_error_iff] at hrejected
    obtain ⟨message, hmessage⟩ := exists_rejectedFor hrejected
    rw [start, hargs]
    obtain ⟨shown, hrun⟩ := withArguments_rejected entropy setting _ hmessage
    exact ⟨message, shown, _, hmessage, hrun⟩
  · rw [start, hhalt]
    rfl
  · rw [start, hargs]
    exact ⟨_, withArguments_accepted hcount (Profile.lookup_ok_iff.1 hprofile)⟩
  · rw [Profile.perform_lookup_of_not_isPath hname, Profile.perform_lookup_of_not_isPath hname]

/-- Command lines that ask for a new directory, next to a file that is in the way and one that has a
word for a truth value: each is rejected, and nothing is made. -/
theorem start_rejected_all :
    let entropy : Entropy Tape := ⟨fun _ => Tape.constant 0, 0⟩
    let t : FileTree := ⟨[(["tiny"], .file (.text "include_comments = true")),
      (["bad.toml"], .file (.text "include_comments = \"yes\""))]⟩
    ∀ args ∈ [["-n", "0", "-o", "new"], ["-p", "enormous", "-o", "new"],
        ["-p", "./tiny/p", "-o", "new"], ["-p", "bad.toml", "-o", "new"]],
      (t.perform (start entropy ⟨[], 0, 0⟩ args)).1.code = 1 ∧
        (t.perform (start entropy ⟨[], 0, 0⟩ args)).2.entries = t.entries := by
  intro entropy t args hargs
  have hrejected : ∃ a, Arguments.parse args = .ok a ∧
      (a.count = 0 ∨ ∃ e, (t.perform (Profile.lookup a.profile)).1 = .error e) := by
    simp only [List.mem_cons, List.not_mem_nil, or_false] at hargs
    rcases hargs with rfl | rfl | rfl | rfl
    · exact ⟨{ count := 0, output := "new" }, by decide +kernel, .inl rfl⟩
    · exact ⟨{ profile := "enormous", output := "new" }, by decide +kernel,
        .inr ⟨.unknown "enormous" "default, tiny, commented", by decide +kernel⟩⟩
    · exact ⟨{ profile := "./tiny/p", output := "new" }, by decide +kernel,
        .inr ⟨.unreadable "./tiny/p" .notDirectory, by decide +kernel⟩⟩
    · exact ⟨{ profile := "bad.toml", output := "new" }, by decide +kernel,
        .inr ⟨.malformed "bad.toml", by decide +kernel⟩⟩
  obtain ⟨a, hparse, ha⟩ := hrejected
  obtain ⟨message, shown, log, -, hrun⟩ := (start_rejected entropy ⟨[], 0, 0⟩ t).1 args a hparse ha
  rw [hrun]
  exact ⟨rfl, rfl⟩

end Run

end SmlSynth
