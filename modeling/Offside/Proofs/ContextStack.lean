import Offside.Proofs.Isolation

/-!
# Contexts as a stack

A session keeps the active settings and, for every context that is entered, what was active before.
As long as contexts are left from the inside out, that is a stack of levels: `Stacked` relates the
two, `Stacked.step` keeps them related through every step of a session, and `stacked_settings` says
that the active settings are always those of the top level.
-/

namespace Offside

/-- Levels of settings on top of each other. Each but the lowest was put there by a context, and has
its name until the name is given to another one. -/
inductive Levels where
  | ground (settings : Settings)
  | entered (context : Option String) (settings : Settings) (below : Levels)
  deriving Repr

namespace Levels

def top : Levels → Settings
  | ground settings => settings
  | entered _ settings _ => settings

/-- The contexts that can be left, the innermost first. -/
def contexts : Levels → List String
  | ground _ => []
  | entered context _ below => context.toList ++ below.contexts

def innermost? : Levels → Option String
  | ground _ => none
  | entered context _ _ => context

/-- The settings of the level under that of a context. -/
def beneath? (context : String) : Levels → Option Settings
  | ground _ => none
  | entered other _ below =>
    if other = some context then some below.top else below.beneath? context

def replace (settings : Settings) : Levels → Levels
  | ground _ => ground settings
  | entered context _ below => entered context settings below

/-- Takes a context its name, and leaves its level in place. -/
def forget (context : String) : Levels → Levels
  | ground settings => ground settings
  | entered other settings below =>
    entered (if other = some context then none else other) settings (below.forget context)

def push (context : String) (settings : Settings) (levels : Levels) : Levels :=
  entered (some context) settings (levels.forget context)

/-- Takes the top level away if it is that of a context. -/
def pop (context : String) : Levels → Levels
  | ground settings => ground settings
  | entered other settings below =>
    if other = some context then below else entered other settings below

def step (levels : Levels) : Session.Step → Levels
  | .set settings => levels.replace settings
  | .reset => levels.replace {}
  | .enter context settings => levels.push context settings
  | .leave context => levels.pop context
  | _ => levels

/-- A context is left when it is the innermost one, or when it has been left before. -/
def Admits (levels : Levels) : Session.Step → Prop
  | .leave context => context ∈ levels.contexts → levels.innermost? = some context
  | _ => True

/-- The contexts are left from the inside out. -/
def InOrder (levels : Levels) : List Session.Step → Prop
  | [] => True
  | step :: steps => levels.Admits step ∧ (levels.step step).InOrder steps

def after (levels : Levels) (steps : List Session.Step) : Levels :=
  steps.foldl Levels.step levels

variable {levels : Levels} {context other : String}

@[simp]
theorem top_replace (settings : Settings) (levels : Levels) :
    (levels.replace settings).top = settings := by
  cases levels <;> rfl

@[simp]
theorem contexts_replace (settings : Settings) (levels : Levels) :
    (levels.replace settings).contexts = levels.contexts := by
  cases levels <;> rfl

@[simp]
theorem beneath?_replace (context : String) (settings : Settings) (levels : Levels) :
    (levels.replace settings).beneath? context = levels.beneath? context := by
  cases levels <;> rfl

@[simp]
theorem top_forget (context : String) (levels : Levels) :
    (levels.forget context).top = levels.top := by
  cases levels <;> rfl

theorem contexts_forget (context : String) (levels : Levels) :
    (levels.forget context).contexts = levels.contexts.filter (· ≠ context) := by
  induction levels with
  | ground settings => rfl
  | entered other settings below ih =>
    rw [forget, contexts, contexts, List.filter_append, ih]
    congr 1
    cases other with
    | none => rfl
    | some name =>
      by_cases hname : name = context <;> simp [hname]

theorem beneath?_entered (name : Option String) (settings : Settings) (below : Levels) :
    (entered name settings below).beneath? other =
      if name = some other then some below.top else below.beneath? other :=
  rfl

theorem beneath?_forget (context other : String) (levels : Levels) :
    (levels.forget context).beneath? other =
      if other = context then none else levels.beneath? other := by
  induction levels with
  | ground settings => rw [forget, beneath?, ite_self]
  | entered name settings below ih =>
    rw [forget, beneath?_entered, beneath?_entered, ih, top_forget]
    by_cases hother : other = context
    · subst hother
      by_cases hname : name = some other <;> simp [hname]
    · by_cases hname : name = some context
      · have hne : ¬some context = some other := fun h => hother (Option.some.inj h).symm
        simp [hname, hother, hne]
      · simp [hname, hother]

theorem beneath?_eq_none (h : context ∉ levels.contexts) : levels.beneath? context = none := by
  induction levels with
  | ground settings => rfl
  | entered name settings below ih =>
    rw [contexts, List.mem_append, not_or] at h
    obtain ⟨hname, hbelow⟩ := h
    rw [beneath?_entered, if_neg, ih hbelow]
    rintro rfl
    exact hname List.mem_cons_self

theorem pop_of_not_mem (h : context ∉ levels.contexts) : levels.pop context = levels := by
  cases levels with
  | ground settings => rfl
  | entered name settings below =>
    rw [pop, if_neg]
    rintro rfl
    exact h List.mem_cons_self

theorem eq_entered_of_innermost? (h : levels.innermost? = some context) :
    ∃ settings below, levels = entered (some context) settings below := by
  cases levels with
  | ground settings => cases h
  | entered name settings below =>
    obtain rfl : name = some context := h
    exact ⟨settings, below, rfl⟩

end Levels

namespace Contexts

/-- What a step of a session does with the contexts. -/
def step (contexts : Contexts) : Session.Step → Contexts
  | .set settings => contexts.set settings
  | .reset => contexts.reset
  | .enter context settings => contexts.enter context settings
  | .leave context => contexts.leave context
  | _ => contexts

/-- The active settings are those of the top level, and for each context that can be left those of
the level under its own are kept. -/
structure Stacked (contexts : Contexts) (levels : Levels) : Prop where
  active_eq : contexts.active = levels.top
  saved_eq : ∀ context, contexts.saved.lookup context = levels.beneath? context
  nodup : levels.contexts.Nodup

namespace Stacked

variable {contexts : Contexts} {levels : Levels}

theorem ground : Stacked {} (.ground {}) :=
  ⟨rfl, fun _ => rfl, List.nodup_nil⟩

theorem set (h : Stacked contexts levels) (settings : Settings) :
    Stacked (contexts.set settings) (levels.replace settings) := by
  refine ⟨?_, fun context => ?_, ?_⟩
  · rw [Levels.top_replace, Contexts.set]
  · rw [Levels.beneath?_replace]
    exact h.saved_eq context
  · rw [Levels.contexts_replace]
    exact h.nodup

theorem enter (h : Stacked contexts levels) (context : String) (settings : Settings) :
    Stacked (contexts.enter context settings) (levels.push context settings) := by
  refine ⟨rfl, fun other => ?_, ?_⟩
  · rw [Contexts.enter, lookup_replace, Levels.push, Levels.beneath?_entered, Levels.top_forget,
      Levels.beneath?_forget, h.saved_eq, h.active_eq]
    by_cases hother : other = context
    · rw [if_pos hother, if_pos (congrArg some hother.symm)]
    · rw [if_neg hother, if_neg fun h => hother (Option.some.inj h).symm, if_neg hother]
  · rw [Levels.push, Levels.contexts, Levels.contexts_forget]
    refine List.nodup_cons.2 ⟨?_, h.nodup.filter _⟩
    simp

theorem leave {context : String} (h : Stacked contexts levels)
    (hadmits : levels.Admits (.leave context)) :
    Stacked (contexts.leave context) (levels.pop context) := by
  by_cases hmem : context ∈ levels.contexts
  · obtain ⟨settings, below, rfl⟩ := Levels.eq_entered_of_innermost? (hadmits hmem)
    obtain ⟨hbelow, hnodup⟩ := List.nodup_cons.1 h.nodup
    have hsaved : contexts.saved.lookup context = some below.top := by
      rw [h.saved_eq, Levels.beneath?_entered, if_pos rfl]
    rw [Contexts.leave, hsaved, Levels.pop, if_pos rfl]
    refine ⟨rfl, fun other => ?_, hnodup⟩
    dsimp only
    rw [lookup_filter]
    by_cases hother : other = context
    · rw [if_pos hother, hother, Levels.beneath?_eq_none hbelow]
    · rw [if_neg hother, h.saved_eq, Levels.beneath?_entered,
        if_neg fun h => hother (Option.some.inj h).symm]
  · have hsaved : contexts.saved.lookup context = none := by
      rw [h.saved_eq, Levels.beneath?_eq_none hmem]
    rw [Contexts.leave, hsaved, Levels.pop_of_not_mem hmem]
    exact h

theorem step (h : Stacked contexts levels) {step : Session.Step} (hadmits : levels.Admits step) :
    Stacked (contexts.step step) (levels.step step) := by
  cases step with
  | set settings => exact h.set settings
  | reset => exact h.set {}
  | enter context settings => exact h.enter context settings
  | leave context => exact h.leave hadmits
  | _ => exact h

end Stacked

end Contexts

theorem Levels.InOrder.of_prefix {levels : Levels} {steps done : List Session.Step}
    (h : levels.InOrder steps) (hdone : done <+: steps) : levels.InOrder done := by
  induction done generalizing levels steps with
  | nil => trivial
  | cons step done ih =>
    obtain ⟨rest, rfl⟩ := hdone
    exact ⟨h.1, ih h.2 (List.prefix_append _ _)⟩

namespace Session

def after (session : Session) (steps : List Step) : Session :=
  steps.foldl (fun session step => (session.step step).2) session

theorem contexts_openIterator (session : Session) (lexer name : String) (iterator : Iterator) :
    (session.openIterator lexer name iterator).2.contexts = session.contexts := by
  rw [openIterator]
  cases session.lexer? lexer <;> rfl

theorem contexts_step (session : Session) (step : Step) :
    (session.step step).2.contexts = session.contexts.step step := by
  cases step with
  | tokens lexer name => exact session.contexts_openIterator lexer name .tokens
  | raw lexer name => exact session.contexts_openIterator lexer name .raw
  | next name | drain name =>
    rw [Session.step]
    cases session.iterator? name <;> rfl
  | _ => rfl

theorem stacked_after {session : Session} {levels : Levels}
    (h : session.contexts.Stacked levels) {steps : List Step} (hsteps : levels.InOrder steps) :
    (session.after steps).contexts.Stacked (levels.after steps) := by
  induction steps generalizing session levels with
  | nil => exact h
  | cons step steps ih =>
    obtain ⟨hadmits, hrest⟩ := hsteps
    apply ih _ hrest
    rw [contexts_step]
    exact h.step hadmits

theorem openIterator_ne_active (session : Session) (lexer name : String) (iterator : Iterator)
    (settings : Settings) : (session.openIterator lexer name iterator).1 ≠ .active settings := by
  rw [openIterator]
  cases session.lexer? lexer <;> rintro ⟨⟩

theorem active_of_answer {session : Session} {step : Step} {settings : Settings}
    (hstep : step ≠ .lookElsewhere) (h : (session.step step).1 = .active settings) :
    (session.step step).2.contexts.active = settings := by
  cases step with
  | create name source file => cases h
  | tokens lexer name => exact absurd h (session.openIterator_ne_active lexer name .tokens settings)
  | raw lexer name => exact absurd h (session.openIterator_ne_active lexer name .raw settings)
  | next name | drain name =>
    rw [Session.step] at h
    cases hiterator : session.iterator? name with
    | none =>
      rw [hiterator] at h
      cases h
    | some found =>
      rw [hiterator] at h
      cases h
  | lex settings source file => cases h
  | lookElsewhere => exact absurd rfl hstep
  | _ => exact Answer.active.inj h

/-- **Contexts are a stack.** When contexts are left from the inside out, the active settings behind
every step of a session are those of the top level of a stack that begins with the default settings
alone. So are the settings that a step answers with, but for those of a session elsewhere. -/
theorem stacked_settings {steps : List Step} (h : (Levels.ground {}).InOrder steps) :
    (∀ done, done <+: steps →
      (after {} done).contexts.active = ((Levels.ground {}).after done).top) ∧
    ∀ done step settings, done ++ [step] <+: steps → step ≠ .lookElsewhere →
      ((after {} done).step step).1 = .active settings →
        settings = ((Levels.ground {}).after (done ++ [step])).top := by
  have hactive (done : List Step) (hdone : done <+: steps) :
      (after {} done).contexts.active = ((Levels.ground {}).after done).top :=
    (stacked_after .ground (h.of_prefix hdone)).active_eq
  refine ⟨hactive, ?_⟩
  intro done step settings hdone hstep hanswer
  rw [← hactive _ hdone, after, List.foldl_append, ← after]
  exact (active_of_answer hstep hanswer).symm

/-- A lexing that fails in the inner one of two contexts, which is left twice. -/
theorem stacked_settings_nested :
    let strict : Settings := { strict := .bool true }
    let steps : List Step := [.enter "outer" strict, .set { distinguishOverflow := .int 0 },
      .enter "inner" strict, .lex none "#" none, .reset, .leave "inner", .leave "inner",
      .leave "outer"]
    (Levels.ground {}).InOrder steps ∧
      (after {} (steps.take 4)).contexts.active = strict ∧
      (after {} (steps.take 5)).contexts.active = {} ∧
      (after {} (steps.take 7)).contexts.active = { distinguishOverflow := .int 0 } ∧
      (after {} steps).contexts.active = {} := by
  intro strict steps
  have horder : (Levels.ground {}).InOrder steps := by
    refine ⟨trivial, trivial, trivial, trivial, trivial, fun _ => rfl, ?_, fun _ => rfl, trivial⟩
    exact fun h => absurd h (by decide)
  obtain ⟨hactive, -⟩ := stacked_settings horder
  refine ⟨horder, ?_, ?_, ?_, ?_⟩
  · exact hactive _ (List.take_prefix 4 steps)
  · exact hactive _ (List.take_prefix 5 steps)
  · exact hactive _ (List.take_prefix 7 steps)
  · exact hactive _ (List.prefix_refl steps)

end Session

end Offside
