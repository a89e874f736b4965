import Mathlib.Data.List.Basic

/-!
# Parsers of streams

A `StreamParser` reads its inputs one at a time. For each it emits events, and goes on, stops or fails; at
the end of the inputs it finishes. What holds of the events comes through

* `run_cases`: a property of the inputs read, the events emitted and the state, kept by every input that
  the parser goes on from, holds where it ends;
* `fits_append`: a property that every event has after those before it (`Fits`) is one of the events
  emitted so far and of the new ones after them;
* `fits_iff_guarded`: the events fit exactly when every input is one that the parser handles well
  (`Guarded`), given that for a single input.
-/

namespace Streaming

variable {σ ι ε χ τ : Type}

/-- What a parser does after an input. -/
inductive Next (σ χ : Type)
  | go (state : σ)
  | stop
  | fail (error : χ)

/-- A parser of inputs `ι` that emits events `ε`. -/
structure StreamParser (σ ι ε χ : Type) where
  feed : σ → ι → List ε × Next σ χ
  /-- The inputs are over. -/
  finish : σ → List ε × Option χ

namespace StreamParser

variable (p : StreamParser σ ι ε χ)

/-- The events, and the error that ends them. -/
def run : σ → List ι → List ε × Option χ
  | s, [] => p.finish s
  | s, i :: is =>
    match p.feed s i with
    | (es, .go s') => (es ++ (run s' is).1, (run s' is).2)
    | (es, .stop) => (es, none)
    | (es, .fail e) => (es, some e)

variable {p}

theorem run_go {s s' : σ} {i : ι} {is : List ι} {es : List ε} (h : p.feed s i = (es, .go s')) :
    p.run s (i :: is) = (es ++ (p.run s' is).1, (p.run s' is).2) := by
  rw [run, h]

theorem run_stop {s : σ} {i : ι} {is : List ι} {es : List ε} (h : p.feed s i = (es, .stop)) :
    p.run s (i :: is) = (es, none) := by
  rw [run, h]

theorem run_fail {s : σ} {i : ι} {is : List ι} {es : List ε} {e : χ} (h : p.feed s i = (es, .fail e)) :
    p.run s (i :: is) = (es, some e) := by
  rw [run, h]

/-- What holds of every event that a state can emit holds of the events of a run. -/
theorem run_forall {P : ε → Prop} (hfeed : ∀ s i, ∀ e ∈ (p.feed s i).1, P e)
    (hfinish : ∀ s, ∀ e ∈ (p.finish s).1, P e) : ∀ (inputs : List ι) (s : σ), ∀ e ∈ (p.run s inputs).1, P e
  | [], s => hfinish s
  | i :: is, s => by
    have hout := hfeed s i
    cases hf : p.feed s i with
    | mk out next =>
      rw [hf] at hout
      cases next with
      | go s' =>
        rw [run_go hf]
        intro e he
        rcases List.mem_append.mp he with he | he
        · exact hout e he
        · exact run_forall hfeed hfinish is s' e he
      | stop =>
        rw [run_stop hf]
        exact hout
      | fail err =>
        rw [run_fail hf]
        exact hout

/-- How a run ends, in a state with a property that every input keeps. -/
inductive Ends (p : StreamParser σ ι ε χ) (I : List ι → List ε → σ → Prop) (inputs : List ι) :
    List ε × Option χ → Prop
  | finished (es : List ε) (s : σ) (holds : I inputs es s) :
      Ends p I inputs (es ++ (p.finish s).1, (p.finish s).2)
  | stopped (read rest : List ι) (i : ι) (es last : List ε) (s : σ) (inputs_eq : inputs = read ++ i :: rest)
      (holds : I read es s) (feed : p.feed s i = (last, .stop)) : Ends p I inputs (es ++ last, none)
  | failed (read rest : List ι) (i : ι) (es last : List ε) (s : σ) (e : χ)
      (inputs_eq : inputs = read ++ i :: rest) (holds : I read es s)
      (feed : p.feed s i = (last, .fail e)) : Ends p I inputs (es ++ last, some e)

theorem run_cases (I : List ι → List ε → σ → Prop)
    (hfeed : ∀ read es s i out s', I read es s → p.feed s i = (out, .go s') →
      I (read ++ [i]) (es ++ out) s') {s : σ} (h : I [] [] s) (inputs : List ι) :
    p.Ends I inputs (p.run s inputs) := by
  have hfrom : ∀ (is read : List ι) (es : List ε) (s : σ), I read es s →
      p.Ends I (read ++ is) (es ++ (p.run s is).1, (p.run s is).2) := by
    intro is
    induction is with
    | nil =>
      intro read es s h
      rw [List.append_nil]
      exact .finished es s h
    | cons i is ih =>
      intro read es s h
      cases hf : p.feed s i with
      | mk out next =>
        cases next with
        | go s' =>
          rw [run_go hf, List.append_cons, ← List.append_assoc]
          exact ih _ _ _ (hfeed _ _ _ _ _ _ h hf)
        | stop =>
          rw [run_stop hf]
          exact .stopped read is i es out s rfl h hf
        | fail e =>
          rw [run_fail hf]
          exact .failed read is i es out s e rfl h hf
  exact hfrom inputs [] [] s h

/-- Every input that is read is handled well; `next` follows the inputs beside the parser. -/
def Guarded (p : StreamParser σ ι ε χ) (Q : τ → σ → ι → Prop) (next : τ → σ → ι → τ) :
    τ → σ → List ι → Prop
  | _, _, [] => True
  | t, s, i :: is => Q t s i ∧ match p.feed s i with
    | (_, .go s') => Guarded p Q next (next t s i) s' is
    | _ => True

end StreamParser

/-! ## Events that fit the events before them -/

/-- Every event fits those before it. -/
def Fits (fit : List ε → ε → Prop) (es : List ε) : Prop :=
  ∀ pre e post, es = pre ++ e :: post → fit pre e

/-- The same for the events after some others. -/
def FitsAfter (fit : List ε → ε → Prop) : List ε → List ε → Prop
  | _, [] => True
  | es, e :: out => fit es e ∧ FitsAfter fit (es ++ [e]) out

variable {fit : List ε → ε → Prop}

theorem fits_nil : Fits fit [] := by
  intro pre e post h
  cases pre <;> cases h

theorem fits_snoc {es : List ε} {e : ε} : Fits fit (es ++ [e]) ↔ Fits fit es ∧ fit es e := by
  constructor
  · intro h
    exact ⟨fun pre e' post hes => h pre e' (post ++ [e]) (by rw [hes]; simp), h es e [] rfl⟩
  · rintro ⟨hes, he⟩ pre e' post heq
    rcases List.eq_nil_or_concat post with rfl | ⟨post, last, rfl⟩
    · obtain ⟨rfl, h⟩ := List.append_inj' heq rfl
      cases h
      exact he
    · rw [List.concat_eq_append, ← List.cons_append, ← List.append_assoc] at heq
      exact hes pre e' post (List.append_inj' heq rfl).1

theorem fits_append : ∀ {out es : List ε}, Fits fit (es ++ out) ↔ Fits fit es ∧ FitsAfter fit es out
  | [], es => by simp [FitsAfter]
  | e :: out, es => by
    rw [List.append_cons, fits_append, fits_snoc, and_assoc]
    rfl

theorem fitsAfter_append : ∀ {a b es : List ε},
    FitsAfter fit es (a ++ b) ↔ FitsAfter fit es a ∧ FitsAfter fit (es ++ a) b
  | [], b, es => by simp [FitsAfter]
  | e :: a, b, es => by
    rw [List.cons_append, FitsAfter, FitsAfter, fitsAfter_append, and_assoc, List.append_assoc]
    rfl

namespace StreamParser

variable {p : StreamParser σ ι ε χ} {Q : τ → σ → ι → Prop} {next : τ → σ → ι → τ}

/-- The events of a run fit exactly when every input is handled well. `J` ties the events emitted to the
state and to what follows the inputs. -/
theorem fits_iff_guarded (J : List ε → τ → σ → Prop)
    (hfeed : ∀ es t s i, J es t s → (Q t s i ↔ FitsAfter fit es (p.feed s i).1))
    (hgo : ∀ es t s i out s', J es t s → Q t s i → p.feed s i = (out, .go s') →
      J (es ++ out) (next t s i) s')
    (hfinish : ∀ es t s, J es t s → FitsAfter fit es (p.finish s).1) {t : τ} {s : σ} {es : List ε}
    (h : J es t s) (inputs : List ι) :
    FitsAfter fit es (p.run s inputs).1 ↔ p.Guarded Q next t s inputs := by
  induction inputs generalizing t s es with
  | nil => exact iff_of_true (hfinish es t s h) trivial
  | cons i is ih =>
    have hstep := hfeed es t s i h
    cases hf : p.feed s i with
    | mk out after =>
      rw [hf] at hstep
      cases after with
      | go s' =>
        rw [run_go hf, fitsAfter_append]
        simp only [Guarded, hf]
        rw [hstep]
        refine and_congr_right fun hout => ?_
        exact ih (hgo es t s i out s' h (hstep.mpr hout) hf)
      | stop => simp only [run_stop hf, Guarded, hf, and_true, hstep]
      | fail e => simp only [run_fail hf, Guarded, hf, and_true, hstep]

end StreamParser

end Streaming
