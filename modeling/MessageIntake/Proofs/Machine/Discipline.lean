import MessageIntake.Proofs.Machine.Schedule

/-!
# Disciplines

How a property of every interleaving is proved one program at a time. A
thread keeps a note, which is not part of the machine: what it has taken
and still owes. A `Discipline` says which requests a thread may ask with
a note in hand and which notes an answer can leave it with, and a
program follows the discipline if that is so at each of its requests.
An invariant of the shared state, the events and the notes of all
threads is upheld if serving what is permitted keeps it.

Following is proved program by program (`Program.Follows.bind`),
upholding request by request, and `Discipline.Upholds.run` puts the two
together: the invariant holds under every schedule, and each thread that
has ended has ended as its program promises.
-/

namespace MessageIntake

variable {I : Interface} {σ α β γ : Type}

/-- What a thread may ask, by its note, and the notes that an answer can
leave it with. -/
structure Discipline (I : Interface) (γ : Type) where
  Permits : γ → I.Request → Prop
  Leads : γ → (r : I.Request) → I.Answer r → γ → Prop

variable {D : Discipline I γ}

namespace Program

/-- **A program follows a discipline**, from a note on: each request is
permitted, whatever the answers are, and the end is as `Post` says. -/
def Follows (D : Discipline I γ) (Post : α → γ → Prop) : Program I α → γ → Prop
  | .done a, g => Post a g
  | .ask r next, g => D.Permits g r ∧ ∀ a g', D.Leads g r a g' → (next a).Follows D Post g'

@[simp] theorem follows_done {Post : α → γ → Prop} {a : α} {g : γ} :
    (Program.done a : Program I α).Follows D Post g ↔ Post a g := Iff.rfl

@[simp] theorem follows_ask {Post : α → γ → Prop} {r : I.Request}
    {next : I.Answer r → Program I α} {g : γ} :
    (Program.ask r next).Follows D Post g ↔
      D.Permits g r ∧ ∀ a g', D.Leads g r a g' → (next a).Follows D Post g' := Iff.rfl

/-- **One program after another.** The second goes on with the note that
the first ends with. -/
theorem Follows.bind {Mid : α → γ → Prop} {Post : β → γ → Prop} {p : Program I α}
    {f : α → Program I β} {g : γ} (hp : p.Follows D Mid g)
    (hf : ∀ a g', Mid a g' → (f a).Follows D Post g') : (p.bind f).Follows D Post g := by
  induction p generalizing g with
  | done a => exact hf a g hp
  | ask r next ih => exact ⟨hp.1, fun a g' hlead => ih a (hp.2 a g' hlead)⟩

theorem Follows.mono {Post Post' : α → γ → Prop} {p : Program I α} {g : γ}
    (hp : p.Follows D Post g) (h : ∀ a g', Post a g' → Post' a g') : p.Follows D Post' g := by
  induction p generalizing g with
  | done a => exact h a g hp
  | ask r next ih => exact ⟨hp.1, fun a g' hlead => ih a (hp.2 a g' hlead)⟩

end Program

/-- A request that is permitted with every note of a kind and leaves one of
the same kind. -/
def Discipline.Keeps (D : Discipline I γ) (Kind : γ → Prop) (r : I.Request) : Prop :=
  ∀ g, Kind g → D.Permits g r ∧ ∀ a g', D.Leads g r a g' → Kind g'

theorem Discipline.Keeps.follows {Kind : γ → Prop} {r : I.Request} (h : D.Keeps Kind r)
    {Post : α → γ → Prop} {next : I.Answer r → Program I α} {g : γ} (hg : Kind g)
    (hnext : ∀ a g', Kind g' → (next a).Follows D Post g') :
    (Program.ask r next).Follows D Post g :=
  ⟨(h g hg).1, fun a g' hlead => hnext a g' ((h g hg).2 a g' hlead)⟩

/-- **Serving what a discipline permits keeps an invariant.** The
invariant reads the events so far, the shared state and the notes of all
threads; `Known` is what is already known of every run. An answer leaves
the thread with a note that the discipline foresees, and a program that
runs for the answer ends with one. -/
structure Discipline.Upholds [Server I σ] (D : Discipline I γ)
    (Known : List (Event I σ) → σ → Prop) (Inv : List (Event I σ) → σ → List γ → Prop) : Prop where
  answers {tr : List (Event I σ)} {s s' : σ} {gs : List γ} {i : Nat} {g : γ} {visit : Visit}
    {r : I.Request} {signal : Signal} {a : I.Answer r} :
    Inv tr s gs → Known tr s → gs[i]? = some g → D.Permits g r →
    Server.serve visit s r = .answers s' signal a → Known (tr ++ [⟨i, s, r, some a, s'⟩]) s' →
    ∃ g', D.Leads g r a g' ∧ Inv (tr ++ [⟨i, s, r, some a, s'⟩]) s' (gs.set i g')
  sleeps {tr : List (Event I σ)} {s s' : σ} {gs : List γ} {i : Nat} {g : γ} {visit : Visit}
    {r : I.Request} {c : Condition} {deadline : Option Instant} :
    Inv tr s gs → Known tr s → gs[i]? = some g → D.Permits g r →
    Server.serve visit s r = .sleeps s' c deadline → Known (tr ++ [⟨i, s, r, none, s'⟩]) s' →
    Inv (tr ++ [⟨i, s, r, none, s'⟩]) s' gs
  runs {tr : List (Event I σ)} {s s' : σ} {gs : List γ} {i : Nat} {g : γ} {visit : Visit}
    {r : I.Request} {p : Program I (I.Answer r)} :
    Inv tr s gs → Known tr s → gs[i]? = some g → D.Permits g r →
    Server.serve visit s r = .runs s' p → Known (tr ++ [⟨i, s, r, none, s'⟩]) s' →
    ∃ g', Inv (tr ++ [⟨i, s, r, none, s'⟩]) s' (gs.set i g') ∧
      p.Follows D (fun a g'' => D.Leads g r a g'') g'

/-- What every thread still has to do follows the discipline, from its
note on. -/
structure Follow (D : Discipline I γ) (Post : Nat → α → γ → Prop) (programs : List (Program I α))
    (gs : List γ) : Prop where
  length_eq : gs.length = programs.length
  follows {i : Nat} {p : Program I α} :
    programs[i]? = some p → ∃ g, gs[i]? = some g ∧ p.Follows D (Post i) g

/-- A thread's progress leaves the others where they were. -/
theorem Follow.set {Post : Nat → α → γ → Prop} {programs : List (Program I α)} {gs : List γ}
    (h : Follow D Post programs gs) {i : Nat} {p : Program I α} {g g' : γ} (hg : gs[i]? = some g)
    (hp : p.Follows D (Post i) g') : Follow D Post (programs.set i p) (gs.set i g') where
  length_eq := by simpa using h.length_eq
  follows := by
    intro j q hq
    by_cases hij : i = j
    · subst hij
      have hi : i < programs.length := h.length_eq ▸ (List.getElem?_eq_some_iff.mp hg).1
      rw [List.getElem?_set_self hi] at hq
      cases hq
      exact ⟨g', getElem?_set_of_some hg g', hp⟩
    · rw [List.getElem?_set_ne hij] at hq ⊢
      exact h.follows hq

namespace Discipline.Upholds

variable [Server I σ] {Known : List (Event I σ) → σ → Prop}
variable {Inv : List (Event I σ) → σ → List γ → Prop} {Post : Nat → α → γ → Prop}

/-- One request of one thread. -/
theorem serve (hD : D.Upholds Known Inv) {tr : List (Event I σ)} {s : σ} {gs : List γ}
    {programs : List (Program I α)} (hinv : Inv tr s gs) (hfollow : Follow D Post programs gs)
    {i : Nat} {visit : Visit} {r : I.Request} {next : I.Answer r → Program I α}
    (hi : programs[i]? = some (.ask r next)) (hknown : Known tr s)
    (hknown' : Known (tr ++ [.of i visit s r]) (Server.serve visit s r).state) :
    ∃ gs', Inv (tr ++ [.of i visit s r]) (Server.serve visit s r).state gs' ∧
      Follow D Post (programs.set i ((Server.serve visit s r).resume next)) gs' := by
  obtain ⟨g, hg, hpermit, hnext⟩ := hfollow.follows hi
  unfold Event.of at hknown' ⊢
  cases hserve : Server.serve visit s r with
  | answers s' signal a =>
    simp only [hserve, Served.state, Served.answer?, Served.resume] at hknown' ⊢
    obtain ⟨g', hlead, hinv'⟩ := hD.answers hinv hknown hg hpermit hserve hknown'
    exact ⟨_, hinv', hfollow.set hg (hnext a g' hlead)⟩
  | sleeps s' c deadline =>
    simp only [hserve, Served.state, Served.answer?, Served.resume] at hknown' ⊢
    refine ⟨gs, hD.sleeps hinv hknown hg hpermit hserve hknown', ?_⟩
    -- the request is asked again, so the thread is where it was
    have hstay : Follow D Post (programs.set i (.ask r next)) (gs.set i g) :=
      hfollow.set hg ⟨hpermit, hnext⟩
    rwa [set_eq_self hg] at hstay
  | runs s' p =>
    simp only [hserve, Served.state, Served.answer?, Served.resume] at hknown' ⊢
    obtain ⟨g', hinv', hp⟩ := hD.runs hinv hknown hg hpermit hserve hknown'
    exact ⟨_, hinv', hfollow.set hg (hp.bind hnext)⟩

/-- **What a discipline upholds holds under every schedule**, and every
thread is still on its way to the end that its program promises. -/
theorem run (hD : D.Upholds Known Inv) {s : σ} {programs : List (Program I α)} {gs : List γ}
    (hinv : Inv [] s gs) (hfollow : Follow D Post programs gs)
    (hknown : ∀ schedule, Known ((Machine.start s programs).run schedule).trace
      ((Machine.start s programs).run schedule).machine.shared)
    (schedule : List (Machine.Move I α)) :
    ∃ gs, Inv ((Machine.start s programs).run schedule).trace
        ((Machine.start s programs).run schedule).machine.shared gs ∧
      Follow D Post ((Machine.start s programs).run schedule).machine.programs gs := by
  induction schedule using List.reverseRecOn with
  | nil =>
    exact ⟨gs, hinv, by rw [Machine.run, List.foldl_nil, Machine.programs_start]; exact hfollow⟩
  | append_singleton schedule move ih =>
    obtain ⟨gs, hinv, hfollow⟩ := ih
    have hafter := hknown (schedule ++ [move])
    rw [Machine.run_concat] at hafter ⊢
    rcases History.step_cases ((Machine.start s programs).run schedule) move with
      ⟨htrace, hshared, hprograms⟩ | ⟨i, visit, r, next, hi, htrace, hshared, hprograms⟩
    · rw [htrace, hshared, hprograms]
      exact ⟨gs, hinv, hfollow⟩
    · rw [htrace, hshared] at hafter
      rw [htrace, hshared, hprograms]
      exact hD.serve hinv hfollow hi (hknown schedule) hafter

end Discipline.Upholds

/-- A thread that has ended keeps what its program promises. -/
theorem Follow.result {Post : Nat → α → γ → Prop} {m : Machine I σ α} {gs : List γ}
    (h : Follow D Post m.programs gs) {i : Nat} {a : α} (hi : m.result? i = some a) :
    ∃ g, gs[i]? = some g ∧ Post i a g := by
  obtain ⟨phase, hphase, ha⟩ := Option.bind_eq_some_iff.mp hi
  exact h.follows (p := .done a) (by simp [Machine.programs, hphase, Phase.program_of_result? ha])

end MessageIntake
