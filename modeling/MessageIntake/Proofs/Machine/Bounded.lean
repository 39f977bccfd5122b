import MessageIntake.Proofs.Machine.Walk
import MessageIntake.Proofs.Queue.Wakeup

/-!
# Programs of bounded length

`Program.Within n` bounds the requests of a program by `n`, whatever they are answered.
If the state is such that each of them is answered at once, and nobody changes that, a
thread comes to its end by as many moves of its own, whatever the other threads do in
between (`Machine.Strides.result?_isSome`).
-/

namespace MessageIntake

variable {I : Interface} {σ α β : Type}

/-- **A program of at most `n` requests.** -/
inductive Program.Within : Nat → Program I α → Prop
  | done (n : Nat) (a : α) : Within n (.done a)
  | ask {n : Nat} {r : I.Request} {next : I.Answer r → Program I α} :
    (∀ a, Within n (next a)) → Within (n + 1) (.ask r next)

namespace Program.Within

variable {p : Program I α} {n k : Nat}

theorem mono (h : p.Within n) (hle : n ≤ k) : p.Within k := by
  induction h generalizing k with
  | done n a => exact .done k a
  | ask _ ih =>
    obtain ⟨k, rfl⟩ := Nat.exists_eq_add_of_le' (Nat.le_trans (Nat.le_add_left 1 _) hle)
    exact .ask fun a => ih a (Nat.le_of_succ_le_succ hle)

/-- One after another. -/
theorem bind {f : α → Program I β} (h : p.Within n) (hf : ∀ a, (f a).Within k) :
    (p.bind f).Within (n + k) := by
  induction h with
  | done n a => exact (hf a).mono (Nat.le_add_left k n)
  | @ask n r next _ ih =>
    rw [Nat.succ_add]
    exact .ask ih

/-- To convert the result asks nothing. -/
theorem map (h : p.Within n) (f : α → β) : (p.bind fun a => .done (f a)).Within n :=
  h.bind fun _ => .done 0 _

/-- No request is left. -/
theorem exists_eq_done (h : p.Within 0) : ∃ a, p = .done a := by
  cases h with
  | done _ a => exact ⟨a, rfl⟩

end Program.Within

namespace Machine

/-- Whether a move is one of thread `i`. -/
def Move.advances (i : Nat) : Move I α → Bool
  | .advance _ j => j = i
  | .enter _ | .wake _ | .tick _ => false

variable [Server I σ] {m : Machine I σ α} {i : Nat} {n : Nat} {Good : σ → Prop}
  {Allowed : I.Request → Prop}

/-- A thread that does not sleep stays where it is while another is served. -/
theorem getElem?_serve_of_ne {j : Nat} (hij : i ≠ j) {phase : Phase I α}
    (hi : m.threads[i]? = some phase) (hawake : phase.isAsleep = false) (choose : Chooser I α)
    (visit : Visit) (r : I.Request) (next : I.Answer r → Program I α) :
    (m.serve choose j visit r next).threads[i]? = some phase := by
  unfold serve
  split
  · rw [List.getElem?_set_ne hij.symm]
    exact getElem?_deliver choose _ hi hawake
  · exact (List.getElem?_set_ne hij.symm).trans hi
  · exact (List.getElem?_set_ne hij.symm).trans hi

/-- **Nobody has to wait** while the state is `Good`, which it stays whatever is asked: what is
`Allowed` is answered at once. -/
structure Fluent (I : Interface) {σ : Type} [Server I σ] (Good : σ → Prop)
    (Allowed : I.Request → Prop) : Prop where
  keeps (visit : Visit) (s : σ) (r : I.Request) : Good s → Good (Server.serve visit s r).state
  answers (visit : Visit) (s : σ) (r : I.Request) : Good s → Allowed r →
    ∃ s' signal a, Server.serve visit s r = .answers s' signal a

/-- **A thread that moves along**: it does not sleep and has `n` requests left at most, which are
all allowed. -/
structure Strides (Good : σ → Prop) (Allowed : I.Request → Prop) (i n : Nat)
    (m : Machine I σ α) : Prop where
  good : Good m.shared
  awake : ∃ phase, m.threads[i]? = some phase ∧ phase.isAsleep = false ∧
    phase.program.Asks Allowed ∧ phase.program.Within n

namespace Strides

variable (hfluent : Fluent I Good Allowed)

include hfluent in
/-- Each of its moves is a step, as long as there is one. -/
theorem advance_self (h : m.Strides Good Allowed i n) (choose : Chooser I α) :
    (m.advance choose i).Strides Good Allowed i (n - 1) := by
  obtain ⟨phase, hi, hawake, hasks, hwithin⟩ := h.awake
  cases hprogram : phase.program with
  | done a =>
    have hended : ∀ phase ∈ m.threads[i]?, ∀ visit r next, ¬ phase.Asks m.clock visit r next := by
      rw [hi]
      rintro _ ⟨⟩ visit r next hphase
      rw [hphase.program_eq] at hprogram
      cases hprogram
    rw [(advance_of_not_asks hended choose).2]
    exact ⟨h.good, phase, hi, hawake, hasks, hprogram ▸ .done _ a⟩
  | ask r next =>
    rw [hprogram] at hasks hwithin
    obtain ⟨visit, hphase⟩ := Phase.exists_asks hawake hprogram m.clock
    cases hasks with
    | ask hr hnext =>
      obtain ⟨s', signal, a, hanswers⟩ := hfluent.answers visit m.shared r h.good hr
      rw [(advance_of_asks hi hphase choose).2]
      refine ⟨?_, .running (next a), ?_, rfl, hnext a, ?_⟩
      · rw [shared_serve]
        exact hfluent.keeps _ _ _ h.good
      · simp only [serve, hanswers]
        exact getElem?_set_of_some (getElem?_deliver choose signal hi hawake) _
      · cases hwithin with
        | ask hleft => exact hleft a

omit [Server I σ] in
/-- To make the next request is no step, of whichever thread. -/
theorem enter (h : m.Strides Good Allowed i n) (j : Nat) : (m.enter j).Strides Good Allowed i n := by
  obtain ⟨phase, hi, hawake, hasks⟩ := h.awake
  rcases m.enter_cases j with hstay | ⟨r, next, hj, hset⟩
  · rwa [hstay]
  · rw [hset]
    by_cases hij : j = i
    · subst hij
      obtain rfl := Option.some_inj.mp (hj.symm.trans hi)
      exact ⟨h.good, _, getElem?_set_of_some hj _, rfl, hasks⟩
    · exact ⟨h.good, phase, (List.getElem?_set_ne hij).trans hi, hawake, hasks⟩

omit [Server I σ] in
/-- It does not sleep, so it cannot be woken. -/
theorem wake (h : m.Strides Good Allowed i n) (j : Nat) : (m.wake j).Strides Good Allowed i n := by
  obtain ⟨phase, hi, hawake, hasks⟩ := h.awake
  exact ⟨h.good, phase, getElem?_deliver (fun _ _ => some j) (.one 0) hi hawake, hawake, hasks⟩

include hfluent in
/-- A move of another thread leaves it where it is. -/
theorem advance_of_ne (h : m.Strides Good Allowed i n) {j : Nat} (hij : i ≠ j)
    (choose : Chooser I α) : (m.advance choose j).Strides Good Allowed i n := by
  obtain ⟨phase, hi, hawake, hasks⟩ := h.awake
  rcases m.advance_cases choose j with ⟨-, hstay⟩ | ⟨other, visit, r, next, -, -, -, hserve⟩
  · rwa [hstay]
  · rw [hserve]
    have hkept := getElem?_serve_of_ne hij hi hawake choose visit r next
    refine ⟨?_, phase, hkept, hawake, hasks⟩
    rw [shared_serve]
    exact hfluent.keeps _ _ _ h.good

include hfluent in
/-- It moves along in every run. -/
theorem run (h : m.Strides Good Allowed i n) (schedule : List (Move I α)) :
    (m.run schedule).machine.Strides Good Allowed i (n - schedule.countP (Move.advances i)) := by
  -- induction on the run: only a move of thread `i` uses up one of its requests
  induction schedule using List.reverseRecOn with
  | nil => exact h
  | append_singleton schedule move ih =>
    rw [run_concat, List.countP_append]
    cases move with
    | tick d => exact ⟨ih.good, ih.awake⟩
    | enter j => exact ih.enter j
    | wake j => exact ih.wake j
    | advance waker j =>
      by_cases hij : i = j
      · subst hij
        have hcount : [Move.advance waker i].countP (Move.advances i) = 1 := by simp [Move.advances]
        rw [hcount, ← Nat.sub_sub]
        exact ih.advance_self hfluent waker.choose
      · have hcount : [Move.advance waker j].countP (Move.advances i) = 0 := by
          simp [Move.advances, Ne.symm hij]
        rw [hcount]
        exact ih.advance_of_ne hfluent hij waker.choose

include hfluent in
/-- **A thread that moves along comes to its end by its own moves**, as many as it has requests
left at most. -/
theorem result?_isSome (h : m.Strides Good Allowed i n) {schedule : List (Move I α)}
    (hmoves : n ≤ schedule.countP (Move.advances i)) :
    ((m.run schedule).machine.result? i).isSome := by
  obtain ⟨phase, hi, hawake, -, hleft⟩ := (h.run hfluent schedule).awake
  rw [Nat.sub_eq_zero_of_le hmoves] at hleft
  obtain ⟨a, hdone⟩ := hleft.exists_eq_done
  rw [result?, hi]
  cases phase with
  | running p =>
    obtain rfl : p = .done a := hdone
    rfl
  | asking => cases hdone
  | asleep => cases hawake

end Strides

end Machine

end MessageIntake
