import Mathlib.Data.Option.NAry
import SmlSynth.Proofs.Delimiters

/-!
# Details beside outlines

An outline tells which texts are clean, and clean texts are seen by a scan as they are put together.
So what is said of a text by what a scan sees of it can be read off a generator beside its outline,
with laws that speak of the marks alone.

* `Detail`, `Detail.reading`: what is said of marks, and the reading beside outlines.
* `Detail.Sound`: the laws of a detail.
* `Detail.sound`: the reading is sound, if the detail is.
* `Detail.Sound.sample`: what a detail says of phrases is true, if it is of lexemes and the values
  of rules are those of their bodies.
-/

namespace SmlSynth

open Outline Reading Sampler Scan

variable {B : Type}

/-- **A detail**: what is said of the marks of a text, and how this is put together. -/
structure Detail (B : Type) where
  /-- Known marks. -/
  exactly : List Mark → B
  /-- The marks of one text and then of another. -/
  append : B → B → B
  /-- The marks of one of two texts. -/
  either : B → B → B
  /-- The marks of texts in a row. -/
  many : B → B
  /-- The marks of a text in brackets. -/
  enclose : B → B
  /-- The marks of a terminal text, or of one of a level less. -/
  gate : B → B → B

namespace Detail

/-! ## The reading beside outlines -/

/-- A text after a change that has an outline. -/
def change (D : Detail B) (b : B) : Change → B
  | .enclose before after =>
    D.enclose (D.append (D.exactly (marks {} before.tail))
      (D.append b (D.exactly (marks {} after.dropLast))))
  | _ => D.either b (D.append b (D.exactly (marks {} [' '])))

/-- **Reading a detail off a generator**, beside its outline. -/
def reading (D : Detail B) : Reading (Option (Outline × B)) where
  literal t := (Outline.literal t).map fun o => (o, D.exactly (marks {} t))
  append := Option.map₂ fun p q => (Outline.append p.1 q.1, D.append p.2 q.2)
  either := Option.map₂ fun p q => (Outline.either p.1 q.1, D.either p.2 q.2)
  many p := p.bind fun p => (Outline.many p.1).map fun o => (o, D.many p.2)
  further p := p.bind fun p => (Outline.many p.1).map fun o => (o, D.many p.2)
  change f p := p.bind fun p => (Outline.change p.1 f).map fun o => (o, D.change p.2 f)
  gate := Option.map₂ fun p q => (Outline.either p.1 q.1, D.gate p.2 q.2)

/-- **A sound detail**: `Says d b ms` says that `b` is true of the marks `ms`, with `d` levels
left. -/
structure Sound (D : Detail B) (Says : Nat → B → List Mark → Prop) : Prop where
  exactly : ∀ d ms, Says d (D.exactly ms) ms
  append : ∀ {d a b ms ns}, Says d a ms → Says d b ns → Says d (D.append a b) (ms ++ ns)
  left : ∀ {d a ms} b, Says d a ms → Says d (D.either a b) ms
  right : ∀ {d b ms} a, Says d b ms → Says d (D.either a b) ms
  many : ∀ {d a} {mss : List (List Mark)}, (∀ ms ∈ mss, Says d a ms) →
    Says d (D.many a) mss.flatten
  enclose : ∀ {d a ms o e}, opener? e = some o → Says d a ms →
    Says d (D.enclose a) (.bare o :: (ms.map (·.raise 1) ++ [(Mark.bare e).raise 1]))
  terminal : ∀ {d a ms} b, Says d a ms → Says d (D.gate a b) ms
  recursive : ∀ {d b ms} a, Says d b ms → Says (d + 1) (D.gate a b) ms

/-! ## The reading is sound -/

/-- **What an outline and a detail say of a text**: it fits, and its marks are as the detail
says. -/
def Describes (limit : Nat) (Says : Nat → B → List Mark → Prop) (d : Nat) :
    Option (Outline × B) → Text → Prop
  | none, _ => True
  | some (o, b), t => (∃ cs, Fits limit o t cs) ∧ Says d b (marks {} t)

variable {D : Detail B} {Says : Nat → B → List Mark → Prop} {limit d : Nat} {t : Text}

theorem marks_flatten {ts : List Text} (h : ∀ t ∈ ts, ∃ cs, Clean t cs) :
    (∃ cs, Clean ts.flatten cs) ∧ marks {} ts.flatten = (ts.map (marks {})).flatten := by
  induction ts with
  | nil => exact ⟨⟨[], clean_nil⟩, rfl⟩
  | cons t rest ih =>
    obtain ⟨cs, hcs⟩ := h t (List.mem_cons_self ..)
    obtain ⟨⟨ds, hds⟩, hmarks⟩ := ih fun u hu => h u (List.mem_cons_of_mem _ hu)
    refine ⟨⟨cs ++ ds, hcs.append hds⟩, ?_⟩
    rw [List.flatten_cons, hcs.marks_append hds, hmarks]
    rfl

/-- **The detail of a text after a change.** -/
theorem Sound.change (hD : D.Sound Says) {f : Change} {o o' : Outline} {b : B} {cs : List Text}
    (h : Fits limit o t cs) (hf : Outline.change o f = some o') (hb : Says d b (marks {} t)) :
    Says d (D.change b f) (marks {} (f.apply t)) := by
  have hexactly : ∀ u, Says d (D.exactly (marks {} u)) (marks {} u) := fun u => hD.exactly d _
  cases f with
  | enclose before after =>
    obtain ⟨o, e, before, after, x, z, rfl, rfl, he, hx, hz, hb'⟩ := of_change_enclose hf
    have hbefore : Fits limit x before [] := fits_literal hx
    have hafter : Fits limit z after [] := fits_literal hz
    have hinner := hbefore.append (h.append hafter)
    obtain ⟨hfirst, hlast⟩ := hinner.untouched he hb'
    rw [apply_enclose, hinner.clean.marks_enclose he hfirst hlast,
      hbefore.clean.marks_append (h.append hafter).clean, h.clean.marks_append hafter.clean]
    simp only [Detail.change, List.tail_cons, List.dropLast_concat]
    exact hD.enclose he (hD.append (hexactly before) (hD.append hb (hexactly after)))
  | padAfter c =>
    show Says d (D.either _ _) (marks {} (if t.getLast? = some c then t ++ [' '] else t))
    split
    · have hspace : Clean [' '] [] := clean_char (by decide)
      rw [h.clean.marks_append hspace]
      exact hD.right _ (hD.append hb (hexactly [' ']))
    · exact hD.left _ hb
  | other f => cases hf

theorem describes_many (hD : D.Sound Says) {p : Option (Outline × B)} {ts : List Text}
    (hlen : ts.length ≤ limit) (h : ∀ t ∈ ts, Describes limit Says d p t) :
    Describes limit Says d (p.bind fun p => (Outline.many p.1).map fun o => (o, D.many p.2))
      ts.flatten := by
  cases p with
  | none => trivial
  | some p =>
    obtain ⟨o, b⟩ := p
    show Describes limit Says d ((Outline.many o).map fun o => (o, D.many b)) ts.flatten
    -- the outlines by themselves fit a row of texts
    have houtline : ∀ t ∈ ts, Outline.Describes limit (fun _ => True) d (some o) t := by
      intro t ht
      obtain ⟨cs, hcs⟩ := (h t ht).1
      exact ⟨cs, hcs, fun _ _ => trivial⟩
    have hrow := Outline.describes_many hlen houtline
    rw [Option.bind_some] at hrow
    cases hm : Outline.many o with
    | none => trivial
    | some o' =>
      rw [hm] at hrow
      obtain ⟨cs, hcs, -⟩ := hrow
      refine ⟨⟨cs, hcs⟩, ?_⟩
      obtain ⟨-, hmarks⟩ := marks_flatten fun t ht => by
        obtain ⟨cs, hcs⟩ := (h t ht).1
        exact ⟨cs, hcs.clean⟩
      rw [hmarks]
      refine hD.many fun ms hms => ?_
      obtain ⟨t, ht, rfl⟩ := List.mem_map.1 hms
      exact (h t ht).2

/-- **What the reading says of a generator's texts is true**, if the detail is sound. -/
theorem sound (hD : D.Sound Says) (limit : Nat) : D.reading.Sound limit (Describes limit Says) where
  literal d t := by
    show Describes limit Says d ((Outline.literal t).map _) t
    cases h : Outline.literal t with
    | none => trivial
    | some o => exact ⟨⟨[], fits_literal h⟩, hD.exactly d _⟩
  append {d p q t u} h h' := by
    cases p with
    | none => trivial
    | some p =>
      cases q with
      | none => trivial
      | some q =>
        obtain ⟨⟨cs, hcs⟩, hsays⟩ := h
        obtain ⟨⟨ds, hds⟩, hsays'⟩ := h'
        refine ⟨⟨cs ++ ds, hcs.append hds⟩, ?_⟩
        rw [hcs.clean.marks_append hds.clean]
        exact hD.append hsays hsays'
  left {d p t} q h := by
    cases p with
    | none => trivial
    | some p =>
      cases q with
      | none => trivial
      | some q => exact ⟨h.1.imp fun cs hcs => hcs.left q.1, hD.left q.2 h.2⟩
  right {d q t} p h := by
    cases p with
    | none => trivial
    | some p =>
      cases q with
      | none => trivial
      | some q =>
        exact ⟨h.1.imp fun cs hcs => either_comm q.1 p.1 ▸ hcs.left p.1, hD.right p.2 h.2⟩
  many hlen h := describes_many hD hlen h
  further hlen h := describes_many hD (Nat.le_trans hlen (Nat.sub_le _ _)) h
  change {d p t} f h := by
    cases p with
    | none => trivial
    | some p =>
      show Describes limit Says d ((Outline.change p.1 f).map _) _
      cases hf : Outline.change p.1 f with
      | none => trivial
      | some o =>
        obtain ⟨⟨cs, hcs⟩, hsays⟩ := h
        exact ⟨⟨cs, hcs.change hf⟩, hD.change hcs hf hsays⟩
  terminal {d p t} q h := by
    cases p with
    | none => trivial
    | some p =>
      cases q with
      | none => trivial
      | some q => exact ⟨h.1.imp fun cs hcs => hcs.left q.1, hD.terminal q.2 h.2⟩
  recursive {d q t} p h := by
    cases p with
    | none => trivial
    | some p =>
      cases q with
      | none => trivial
      | some q =>
        exact ⟨h.1.imp fun cs hcs => either_comm q.1 p.1 ▸ hcs.left p.1, hD.recursive p.2 h.2⟩

/-! ## Phrases -/

/-- The outline and the detail of a symbol. -/
def symbol (lexeme : Lexeme → B) (rule : Rule → B) : Symbol Lexeme Rule → Option (Outline × B)
  | .terminal l => some (l.outline, lexeme l)
  | .rule r => some (r.outline, rule r)

/-- **What a detail says of a phrase's texts is true**, if it is of lexemes and each rule's value is
that of its body. -/
theorem Sound.sample {σ : Type} [Source σ] (hD : D.Sound Says) {lexeme : Lexeme → B}
    {rule : Rule → B} (hlexeme : ∀ {l t}, l.Form t → ∀ d, Says d (lexeme l) (marks {} t))
    (hbody : ∀ r, r.body.read D.reading (symbol lexeme rule) = some (r.outline, rule r))
    (p : Phrase) {o : Outline} {b : B} (hp : p.read D.reading (symbol lexeme rule) = some (o, b))
    {c : Context σ} {t : Text} (ht : (p.sample c).1 = .ok t) :
    (∃ cs, Clean t cs) ∧ Says c.levels b (marks {} t) := by
  have hyields : Reading.Sound.Yields c.bounds.maxRepeat (Describes c.bounds.maxRepeat Says)
      (p.sample (σ := σ)) (p.read D.reading (symbol lexeme rule)) := by
    refine (sound hD _).sample (fun l c' u _ hu => ?_) (fun r d u h => ?_) p
    · have hform := Lexeme.draws_form l c' u hu
      exact ⟨⟨_, fits_lexeme (Lexeme.spelled_of_form hform) _⟩, hlexeme hform _⟩
    · rw [hbody] at h
      exact h
  have h := hyields c t rfl ht
  rw [hp] at h
  exact ⟨h.1.imp fun cs hcs => hcs.clean, h.2⟩

end Detail

end SmlSynth
