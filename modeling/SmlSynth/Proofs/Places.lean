import Mathlib.Data.List.SplitBy
import SmlSynth.Files.Directories
import SmlSynth.Files.Tree

/-!
# Files in a directory

A file is written at the place below the one that its directory's path leads to. Writing it changes
that place only and leaves all directories where they are, so that paths lead where they led before.

* `Path.Plain`: names that stay in their directory; `Path.parts_join`: such a name is the last part.
* `lookup_iff_mem`: the value of a key.
* `FileTree.Keeps`: all directories are still there; `resolve_of_keeps`: so paths lead to the same
  places.
* `FileTree.Written`: a tree after files were written to a directory.
* `FileTree.written_of_write`, `Written.append`: what one write does, and what some writes and then
  others do.
* `FileTree.Extends`: a tree with more directories; `makesOnly_makeDirs`: what making directories
  does; `perform_makeDirs`: nothing, if the directory is there.
-/

namespace SmlSynth

/-! ## Paths -/

namespace Path

/-- **A name that stays in its directory**: it is not empty, has no slash, and is neither of the two
names that lead elsewhere. -/
structure Plain (name : String) : Prop where
  nonempty : name ≠ ""
  slash : '/' ∉ name.toList
  here : name ≠ "."
  above : name ≠ ".."

variable {directory file : String}

theorem Plain.toList_ne_nil (h : Plain file) : file.toList ≠ [] := fun hnil =>
  h.nonempty (String.toList_inj.1 hnil)

/-- The parts of a path as lists of characters. -/
def pieces (cs : List Char) : List (List Char) :=
  (cs.splitBy fun a b => a ≠ '/' && b ≠ '/').filter (· ≠ ['/'])

theorem parts_eq (path : String) : parts path = (pieces path.toList).map String.ofList := rfl

/-- At a slash a path can be cut. -/
theorem pieces_append {xs ys : List Char}
    (h : ∀ x ∈ xs.getLast?, ∀ y ∈ ys.head?, x = '/' ∨ y = '/') :
    pieces (xs ++ ys) = pieces xs ++ pieces ys := by
  unfold pieces
  rw [List.splitBy_append, List.filter_append]
  intro x hx y hy
  rcases h x hx y hy with rfl | rfl
  · rfl
  · exact Bool.and_false _

/-- A name without a slash is one part. -/
theorem pieces_eq_self {cs : List Char} (hne : cs ≠ []) (h : '/' ∉ cs) : pieces cs = [cs] := by
  have hchain : List.IsChain (fun a b => (a ≠ '/' && b ≠ '/' : Bool) = true) cs := by
    refine (List.pairwise_of_forall_mem_list fun a ha b hb => ?_).isChain
    have ha' : a ≠ '/' := fun he => h (he ▸ ha)
    have hb' : b ≠ '/' := fun he => h (he ▸ hb)
    simp [ha', hb']
  have hslash : cs ≠ ['/'] := fun he => h (he ▸ List.mem_cons_self ..)
  unfold pieces
  rw [List.splitBy_of_isChain hne hchain, List.filter_cons_of_pos (by simpa using hslash)]
  rfl

/-- A slash between a directory and a file is no part. -/
theorem pieces_slash (cs : List Char) : pieces ('/' :: cs) = pieces cs := by
  have hone : pieces ['/'] = [] := by decide
  rw [← List.singleton_append, pieces_append, hone, List.nil_append]
  intro x hx y _
  exact .inl (Option.some.inj hx).symm

/-- **A plain name is the last part** of the path of a file in a directory. -/
theorem parts_join (h : Plain file) : parts (join directory file) = parts directory ++ [file] := by
  have hfile : pieces file.toList = [file.toList] := pieces_eq_self h.toList_ne_nil h.slash
  have hpieces :
      pieces (join directory file).toList = pieces directory.toList ++ [file.toList] := by
    unfold join
    split
    · rename_i hdirectory
      -- there is nothing before the name, or a slash
      rw [String.toList_append, pieces_append, hfile]
      intro x hx y _
      rcases hdirectory with rfl | hmeans
      · cases hx
      · rw [meansDirectory, hx] at hmeans
        exact .inl (by simpa using hmeans)
    · rw [String.toList_append, String.toList_append, List.append_assoc, pieces_append]
      · show _ ++ pieces ('/' :: file.toList) = _
        rw [pieces_slash, hfile]
      · intro x _ y hy
        exact .inr (Option.some.inj hy).symm
  rw [parts_eq, hpieces, List.map_append, ← parts_eq, List.map_singleton, String.ofList_toList]

/-- A file's path starts where its directory's does. -/
theorem isAbsolute_join (h : Plain file) :
    isAbsolute (join directory file) = isAbsolute directory := by
  have hfile : ¬ file.toList.head? = some '/' := fun hhead => h.slash (List.mem_of_head? hhead)
  by_cases hempty : directory = ""
  · subst hempty
    have hjoin : join "" file = "" ++ file := if_pos (.inl rfl)
    rw [hjoin]
    simpa [isAbsolute] using hfile
  · have hne : directory.toList ≠ [] := fun hnil => hempty (String.toList_inj.1 hnil)
    obtain ⟨c, cs, hcs⟩ := List.exists_cons_of_ne_nil hne
    have hhead : ∀ rest : String, (directory ++ rest).toList.head? = directory.toList.head? := by
      intro rest
      rw [String.toList_append, hcs]
      rfl
    unfold join isAbsolute
    split
    · rw [hhead]
    · rw [String.append_assoc, hhead]

/-- A file's path means no directory. -/
theorem meansDirectory_join (h : Plain file) : meansDirectory (join directory file) = false := by
  have hlast : file.toList.getLast? ≠ some '/' := fun hlast => h.slash (List.mem_of_getLast? hlast)
  have hjoin : ∃ before, (join directory file).toList = before ++ file.toList := by
    unfold join
    split
    · exact ⟨_, String.toList_append⟩
    · exact ⟨_, String.toList_append⟩
  obtain ⟨before, hjoin⟩ := hjoin
  rw [meansDirectory, hjoin, List.getLast?_append_of_ne_nil _ h.toList_ne_nil]
  exact beq_eq_false_iff_ne.2 hlast

end Path

/-! ## Keys -/

/-- Where no two entries have one key, the value of a key is the one that stands with it. -/
theorem lookup_iff_mem {α β : Type} [BEq α] [LawfulBEq α] {entries : List (α × β)} {key : α}
    {value : β} (h : (entries.map (·.1)).Nodup) :
    entries.lookup key = some value ↔ (key, value) ∈ entries := by
  induction entries with
  | nil => simp
  | cons entry entries ih =>
    rw [List.map_cons, List.nodup_cons] at h
    rw [List.lookup_cons, List.mem_cons, Prod.ext_iff]
    by_cases hkey : key = entry.1
    · subst hkey
      have hnot : (entry.1, value) ∉ entries := fun hmem => h.1 (List.mem_map.2 ⟨_, hmem, rfl⟩)
      simp [hnot, eq_comm]
    · rw [beq_false_of_ne hkey, ih h.2]
      simp [hkey]

namespace FileTree

open SmlSynth.Path (Plain)

variable {t t' t'' : FileTree} {p q d : Place} {n : Node} {path output name text : String}

/-! ## Computations on a tree -/

/-- **What a computation on a tree yields**, and the tree after it. -/
def perform {α : Type} (t : FileTree) (s : StateM FileTree α) : α × FileTree := s t

/-- The second step starts from the tree that the first one leaves. -/
theorem perform_bind {α β : Type} (s : StateM FileTree α) (f : α → StateM FileTree β) :
    t.perform (s >>= f) = (t.perform s).2.perform (f (t.perform s).1) := rfl

theorem perform_read : t.perform (FileSystem.read path) = (t.read path, t) := rfl

theorem perform_write : t.perform (FileSystem.write path text) =
    match t.write path text with
    | .ok t' => (.ok (), t')
    | .error e => (.error e, t) := rfl

theorem perform_makeDir : t.perform (FileSystem.makeDir path) =
    match t.makeDir path with
    | .ok t' => (.ok (), t')
    | .error e => (.error e, t) := rfl

/-! ## Places of a tree -/

/-- A place that is no directory is not one of those that are always there. -/
theorem not_isGiven (h : t.get? p ≠ some .directory) : ¬ p.isGiven = true := by
  intro hgiven
  rw [get?, if_pos hgiven] at h
  exact h rfl

theorem lookup_filter_ne {entries : List (Place × Node)} (h : q ≠ p) :
    (entries.filter fun e => e.1 ≠ p).lookup q = entries.lookup q := by
  induction entries with
  | nil => rfl
  | cons e rest ih =>
    obtain ⟨r, m⟩ := e
    by_cases hr : r = p
    · subst hr
      have hqr : (q == r) = false := beq_eq_false_iff_ne.2 h
      rw [List.filter_cons_of_neg (by simp), ih, List.lookup_cons, hqr]
    · rw [List.filter_cons_of_pos (by simpa using hr), List.lookup_cons, List.lookup_cons, ih]

/-- **What is set is there.** -/
theorem get?_set_self (h : ¬ p.isGiven = true) : (t.set p n).get? p = some n := by
  have hnone : (t.entries.filter fun e => e.1 ≠ p).lookup p = none := by
    refine List.lookup_eq_none_iff.2 fun e he => ?_
    have hne : e.1 ≠ p := by simpa using (List.mem_filter.1 he).2
    simpa using Ne.symm hne
  rw [get?, if_neg h, set, List.lookup_append, hnone, List.lookup_cons, beq_self_eq_true]
  rfl

/-- **All else is as it was.** -/
theorem get?_set_of_ne (h : q ≠ p) : (t.set p n).get? q = t.get? q := by
  have hqp : (q == p) = false := beq_eq_false_iff_ne.2 h
  have hlookup : (t.set p n).entries.lookup q = t.entries.lookup q := by
    rw [set, List.lookup_append, lookup_filter_ne h, List.lookup_cons, hqp, List.lookup_nil,
      Option.or_none]
  rw [get?, get?, hlookup]

/-! ## Where paths lead -/

/-- **All directories are still there.** -/
def Keeps (t t' : FileTree) : Prop := ∀ p, t.get? p = some .directory → t'.get? p = some .directory

theorem Keeps.trans (h : Keeps t t') (h' : Keeps t' t'') : Keeps t t'' := fun p hp => h' p (h p hp)

/-- What is set where no directory is keeps all directories. -/
theorem keeps_set (h : t.get? p ≠ some .directory) : Keeps t (t.set p n) := by
  intro q hq
  have hne : q ≠ p := by rintro rfl; exact h hq
  rw [get?_set_of_ne hne, hq]

/-- The place that a path leads to, however long it is. -/
def walk (t : FileTree) (path : String) : Except FileFault Place :=
  (Path.parts path).foldlM t.step (if Path.isAbsolute path then Place.root else [])

/-- A step starts from a directory. -/
theorem get?_of_step {part : String} (h : t.step p part = .ok q) : t.get? p = some .directory := by
  unfold step at h
  split at h
  · cases h
  · cases h
  · assumption

/-- **A plain name leads to the place below.** -/
theorem of_step_plain (hname : Plain name) (h : t.step p name = .ok q) : q = p ++ [name] := by
  have hp := get?_of_step h
  unfold step at h
  rw [hp] at h
  simp only [if_neg hname.here, if_neg hname.above] at h
  split at h
  · cases h
  · exact (Except.ok.inj h).symm

theorem step_of_keeps {part : String} (hkeeps : Keeps t t') (h : t.step p part = .ok q) :
    t'.step p part = .ok q := by
  have hp := get?_of_step h
  unfold step at h ⊢
  rw [hp] at h
  rw [hkeeps p hp]
  exact h

theorem steps_of_keeps (hkeeps : Keeps t t') (parts : List String)
    (h : parts.foldlM t.step p = .ok q) : parts.foldlM t'.step p = .ok q := by
  induction parts generalizing p with
  | nil => exact h
  | cons part rest ih =>
    rw [List.foldlM_cons] at h ⊢
    cases hstep : t.step p part with
    | error e => rw [hstep] at h; cases h
    | ok r =>
      rw [hstep] at h
      rw [step_of_keeps hkeeps hstep]
      exact ih h

theorem walk_of_keeps (hkeeps : Keeps t t') (h : t.walk path = .ok p) : t'.walk path = .ok p :=
  steps_of_keeps hkeeps _ h

theorem walk_of_resolve (h : t.resolve path = .ok p) : t.walk path = .ok p := by
  unfold resolve at h
  split at h
  · cases h
  split at h
  · cases h
  split at h
  · cases h
  exact h

/-- **Paths lead to the same places** while all directories are there. -/
theorem resolve_of_keeps (hkeeps : Keeps t t') (h : t.resolve path = .ok p) :
    t'.resolve path = .ok p := by
  have hwalk := walk_of_keeps hkeeps (walk_of_resolve h)
  unfold resolve at h ⊢
  split at h
  · cases h
  split at h
  · cases h
  split at h
  · cases h
  rw [if_neg ‹_›, if_neg ‹_›, if_neg ‹_›]
  exact hwalk

/-- **The path of a file leads below the place of its directory.** -/
theorem walk_join (hname : Plain name) (h : t.walk (Path.join output name) = .ok p) :
    ∃ d, t.walk output = .ok d ∧ p = d ++ [name] := by
  unfold walk at h
  rw [Path.parts_join hname, Path.isAbsolute_join hname, List.foldlM_append] at h
  cases hd : t.walk output with
  | error e =>
    unfold walk at hd
    rw [hd] at h
    cases h
  | ok d =>
    refine ⟨d, rfl, ?_⟩
    unfold walk at hd
    rw [hd] at h
    simp only [List.foldlM_cons, List.foldlM_nil] at h
    cases hstep : t.step d name with
    | error e => simp [hstep, bind, Except.bind] at h
    | ok r =>
      obtain rfl : r = p := by simpa [hstep, bind, Except.bind, pure, Except.pure] using h
      exact of_step_plain hname hstep

/-! ## Writing -/

/-- **What a write does**: its path leads to a place where no directory is, and the text is put
there. -/
theorem of_write (h : t.write path text = .ok t') :
    ∃ p, t.resolve path = .ok p ∧ t.get? p ≠ some .directory ∧
      t' = t.set p (.file (.text text)) := by
  unfold write at h
  cases hp : t.resolve path with
  | error e => rw [hp] at h; cases h
  | ok p =>
    rw [hp] at h
    simp only [bind, Except.bind] at h
    split at h
    · cases h
    · rename_i hne
      split at h
      · cases h
      · exact ⟨p, rfl, hne, (Except.ok.inj h).symm⟩

/-- A text is written wherever a path leads and there is no directory. -/
theorem write_of_resolve (hpath : Path.meansDirectory path = false) (hp : t.resolve path = .ok p)
    (hne : t.get? p ≠ some .directory) :
    t.write path text = .ok (t.set p (.file (.text text))) := by
  rw [write, hp]
  simp only [bind, Except.bind, hpath, Bool.false_eq_true, if_false]

/-- **A file that was written is read back.** -/
theorem read_of_write (hpath : Path.meansDirectory path = false)
    (h : t.write path text = .ok t') : t'.read path = .ok text := by
  obtain ⟨p, hp, hne, rfl⟩ := of_write h
  rw [read, resolve_of_keeps (keeps_set hne) hp]
  simp only [bind, Except.bind]
  rw [get?_set_self (not_isGiven hne)]
  simp only [hpath]
  rfl

/-- **A tree after files were written to a directory**, given by their names and texts: the path of
each leads to its place in the directory, its text is there, and all other places are as they
were. -/
structure Written (output : String) (d : Place) (files : List (String × String))
    (t t' : FileTree) : Prop where
  keeps : Keeps t t'
  path : ∀ file ∈ files, t'.resolve (Path.join output file.1) = .ok (d ++ [file.1])
  content : ∀ file ∈ files, t'.get? (d ++ [file.1]) = some (.file (.text file.2))
  other : ∀ q, (∀ file ∈ files, q ≠ d ++ [file.1]) → t'.get? q = t.get? q

theorem written_nil : Written output d [] t t where
  keeps _ hp := hp
  path _ hfile := absurd hfile List.not_mem_nil
  content _ hfile := absurd hfile List.not_mem_nil
  other _ _ := rfl

/-- One write to a directory. -/
theorem written_of_write (hname : Plain name) (hd : t.walk output = .ok d)
    (h : t.write (Path.join output name) text = .ok t') :
    Written output d [(name, text)] t t' := by
  obtain ⟨p, hp, hne, rfl⟩ := of_write h
  obtain ⟨d', hd', rfl⟩ := walk_join hname (walk_of_resolve hp)
  obtain rfl : d' = d := Except.ok.inj (hd'.symm.trans hd)
  have hkeeps : Keeps t (t.set (d' ++ [name]) (.file (.text text))) := keeps_set hne
  refine ⟨hkeeps, fun file hfile => ?_, fun file hfile => ?_, fun q hq => ?_⟩
  · rw [List.mem_singleton.1 hfile]
    exact resolve_of_keeps hkeeps hp
  · rw [List.mem_singleton.1 hfile]
    exact get?_set_self (not_isGiven hne)
  · exact get?_set_of_ne (hq _ (List.mem_singleton_self _))

/-- **Some files and then others**, under other names. -/
theorem Written.append {files files' : List (String × String)} (h : Written output d files t t')
    (h' : Written output d files' t' t'')
    (hnames : ∀ file ∈ files, ∀ file' ∈ files', file.1 ≠ file'.1) :
    Written output d (files ++ files') t t'' := by
  refine ⟨h.keeps.trans h'.keeps, fun file hfile => ?_, fun file hfile => ?_, fun q hq => ?_⟩
  · rcases List.mem_append.1 hfile with hfile | hfile
    · exact resolve_of_keeps h'.keeps (h.path file hfile)
    · exact h'.path file hfile
  · rcases List.mem_append.1 hfile with hfile | hfile
    · -- the files written later are at other places
      rw [h'.other _ fun file' hfile' => ?_]
      · exact h.content file hfile
      · intro hplace
        exact hnames file hfile file' hfile' (List.singleton_inj.1 (List.append_cancel_left hplace))
    · exact h'.content file hfile
  · rw [h'.other q fun file hfile => hq file (List.mem_append_right _ hfile),
      h.other q fun file hfile => hq file (List.mem_append_left _ hfile)]

/-! ## Making directories -/

/-- **A tree with more directories**: all else is as it was. -/
def Extends (t t' : FileTree) : Prop :=
  ∀ q, t'.get? q = t.get? q ∨ t.get? q = none ∧ t'.get? q = some .directory

theorem Extends.refl (t : FileTree) : Extends t t := fun _ => .inl rfl

theorem Extends.trans (h : Extends t t') (h' : Extends t' t'') : Extends t t'' := by
  intro q
  rcases h q with hq | ⟨hq, hq'⟩
  · rw [← hq]; exact h' q
  · refine .inr ⟨hq, ?_⟩
    rcases h' q with hq'' | ⟨hnone, -⟩
    · rw [hq'', hq']
    · rw [hq'] at hnone; cases hnone

theorem extends_makeDir (h : t.makeDir path = .ok t') : Extends t t' := by
  unfold makeDir at h
  cases hp : t.resolve path with
  | error e => rw [hp] at h; cases h
  | ok p =>
    rw [hp] at h
    simp only [bind, Except.bind] at h
    split at h
    · cases h
    · rename_i hnone
      have hne : t.get? p ≠ some .directory := by rw [hnone]; decide
      rw [← Except.ok.inj h]
      intro q
      by_cases hq : q = p
      · subst hq
        exact .inr ⟨hnone, get?_set_self (not_isGiven hne)⟩
      · exact .inl (get?_set_of_ne hq)

/-- **A computation that makes directories**, and changes nothing else. -/
def MakesOnly {α : Type} (s : StateM FileTree α) : Prop := ∀ t, Extends t (t.perform s).2

section MakesOnly

variable {α β : Type}

theorem makesOnly_pure (x : α) : MakesOnly (pure x) := fun t => .refl t

theorem makesOnly_bind {s : StateM FileTree α} {f : α → StateM FileTree β} (hs : MakesOnly s)
    (hf : ∀ x, MakesOnly (f x)) : MakesOnly (s >>= f) := fun t => (hs t).trans (hf _ _)

theorem makesOnly_makeDir (path : String) : MakesOnly (FileSystem.makeDir path) := by
  intro t
  rw [perform_makeDir]
  split
  · rename_i h; exact extends_makeDir h
  · exact .refl t

theorem makesOnly_isDirectory (path : String) : MakesOnly (FileSystem.isDirectory path) := by
  refine makesOnly_bind (fun t => .refl t) fun result => ?_
  split <;> exact makesOnly_pure _

theorem makesOnly_ensureDir (path : String) : MakesOnly (FileSystem.ensureDir path) := by
  refine makesOnly_bind (makesOnly_makeDir path) fun result => ?_
  split
  · refine makesOnly_bind (makesOnly_isDirectory path) fun there => ?_
    split <;> exact makesOnly_pure _
  · exact makesOnly_pure _

theorem makesOnly_missingBelow : ∀ paths : List String, MakesOnly (FileSystem.missingBelow paths)
  | [] => makesOnly_pure _
  | path :: above => by
    refine makesOnly_bind (makesOnly_ensureDir path) fun result => ?_
    split
    · exact makesOnly_pure _
    · exact makesOnly_bind (makesOnly_missingBelow above) fun _ => makesOnly_pure _
    · exact makesOnly_pure _

theorem makesOnly_ensureDirs : ∀ paths : List String, MakesOnly (FileSystem.ensureDirs paths)
  | [] => makesOnly_pure _
  | path :: rest => by
    refine makesOnly_bind (makesOnly_ensureDir path) fun result => ?_
    split
    · exact makesOnly_ensureDirs rest
    · exact makesOnly_pure _

/-- **Making directories changes nothing else**, whether it succeeds or not. -/
theorem makesOnly_makeDirs (path : String) : MakesOnly (FileSystem.makeDirs path) := by
  refine makesOnly_bind (makesOnly_missingBelow _) fun result => ?_
  split
  · exact makesOnly_ensureDirs _
  · exact makesOnly_pure _

end MakesOnly

theorem perform_ensureDir (hp : t.resolve path = .ok p) (hd : t.get? p = some .directory) :
    t.perform (FileSystem.ensureDir path) = (.ok (), t) := by
  have hmake : t.makeDir path = .error .alreadyThere := by
    simp only [makeDir, hp, bind, Except.bind, hd]
  have hread : t.read path = .error .isDirectory := by
    simp only [read, hp, bind, Except.bind, hd]
  have hthere : t.perform (FileSystem.isDirectory path) = (true, t) := by
    rw [FileSystem.isDirectory, perform_bind, perform_read, hread]
    rfl
  rw [FileSystem.ensureDir, perform_bind, perform_makeDir, hmake]
  simp only
  rw [perform_bind, hthere]
  rfl

/-- **A directory that is there is left as it is.** -/
theorem perform_makeDirs (hp : t.resolve path = .ok p) (hd : t.get? p = some .directory) :
    t.perform (FileSystem.makeDirs path) = (.ok (), t) := by
  have hmissing : t.perform (FileSystem.missingBelow (Path.lineage path)) = (.ok [], t) := by
    unfold Path.lineage
    split
    · rfl
    · rw [FileSystem.missingBelow, perform_bind, perform_ensureDir hp hd]
      rfl
  rw [FileSystem.makeDirs, perform_bind, hmissing]
  rfl

end FileTree

end SmlSynth
