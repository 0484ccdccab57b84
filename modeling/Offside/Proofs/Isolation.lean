import Mathlib
import Offside.Session

/-!
# Isolation

Lexers do not interfere with each other, whatever else goes on in a session. What the steps of a
session do with one lexer is a list of uses, in which nothing of the rest of the session is left but
the truth of one setting. A lexer in a session keeps up with the only lexer of another session that
is put to the same uses: `Mirrors.answers_eq`. `isolation` says that the answers to the steps on a
lexer are told by its uses, and that they do not change when all other steps are left out.
-/

namespace Offside

theorem lookup_filter {α : Type} (name other : String) (table : List (String × α)) :
    (table.filter (·.1 ≠ name)).lookup other =
      if other = name then none else table.lookup other := by
  induction table with
  | nil => rw [List.filter_nil, List.lookup_nil, ite_self]
  | cons entry table ih =>
    obtain ⟨key, value⟩ := entry
    by_cases hfound : other = key
    · subst hfound
      by_cases hother : other = name
      · rw [List.filter_cons_of_neg (by simp [hother]), ih, if_pos hother, if_pos hother]
      · rw [List.filter_cons_of_pos (by simp [hother]), if_neg hother, List.lookup_cons_self,
          List.lookup_cons_self]
    · have hhead : (other == key) = false := beq_eq_false_iff_ne.2 hfound
      by_cases hkey : key = name
      · rw [List.filter_cons_of_neg (by simp [hkey]), ih, List.lookup_cons, hhead]
      · rw [List.filter_cons_of_pos (by simp [hkey]), List.lookup_cons, List.lookup_cons, hhead, ih]

theorem lookup_replace {α : Type} (name other : String) (value : α) (table : List (String × α)) :
    ((name, value) :: table.filter (·.1 ≠ name)).lookup other =
      if other = name then some value else table.lookup other := by
  by_cases hother : other = name
  · rw [if_pos hother, hother, List.lookup_cons_self]
  · have hhead : (other == name) = false := beq_eq_false_iff_ne.2 hother
    rw [if_neg hother, List.lookup_cons, hhead]
    dsimp only
    rw [lookup_filter, if_neg hother]

namespace Session

/-! ### Uses of a lexer -/

/-- How an iterator is gone on with. -/
inductive Demand where
  | next
  | drain
  deriving DecidableEq, Repr

/-- The answer to a demand, and the iterator and the lexer behind it. -/
def Demand.meet (lexer : Lexer) (iterator : Iterator) : Demand → Answer × Iterator × Lexer
  | .next =>
    let pull := lexer.pull iterator
    (.pulled pull.outcome pull.lexer, pull.iterator, pull.lexer)
  | .drain =>
    let run := lexer.run false iterator
    (.drained run.ending run.entries run.lexer, .ended, run.lexer)

/-- What a step does with a lexer. The settings count when the lexer is made, and of them only
whether they distinguish. -/
inductive Use where
  | create (source : String) (file : Option String) (distinguish : Bool)
  | iterate (name : String) (iterator : Iterator)
  | demand (demand : Demand) (name : String)
  deriving DecidableEq, Repr

/-- The number of the lexer that a step concerns, if it does concern one, and what it does with
it. -/
def use? (session : Session) : Step → Option (Nat × Use)
  | .create _ source file =>
    some (session.lexers.length, .create source file session.contexts.active.distinguishes)
  | .tokens lexer name => (session.lexer? lexer).map fun found => (found.1, .iterate name .tokens)
  | .raw lexer name => (session.lexer? lexer).map fun found => (found.1, .iterate name .raw)
  | .next name => (session.iterator? name).map fun found => (found.1, .demand .next name)
  | .drain name => (session.iterator? name).map fun found => (found.1, .demand .drain name)
  | _ => none

/-- A step on a lexer, what it does with it, and the answer to it. -/
structure Exchange where
  step : Step
  use : Use
  answer : Answer

def exchange? (number : Nat) (session : Session) (step : Step) : Option Exchange :=
  match session.use? step with
  | none => none
  | some (concerned, use) =>
    if concerned = number then some ⟨step, use, (session.step step).1⟩ else none

/-- The steps of a session that concern the lexer of a number, in order. -/
def exchanges (number : Nat) (session : Session) : List Step → List Exchange
  | [] => []
  | step :: steps =>
    (session.exchange? number step).toList ++ (session.step step).2.exchanges number steps

variable {session alone : Session} {number : Nat} {step : Step} {use : Use} {steps : List Step}

theorem exchanges_of_use (h : session.use? step = some (number, use)) (steps : List Step) :
    session.exchanges number (step :: steps) =
      ⟨step, use, (session.step step).1⟩ :: (session.step step).2.exchanges number steps := by
  rw [exchanges, exchange?, h]
  dsimp only
  rw [if_pos rfl]
  rfl

theorem exchanges_of_other (h : ∀ use, session.use? step ≠ some (number, use))
    (steps : List Step) :
    session.exchanges number (step :: steps) = (session.step step).2.exchanges number steps := by
  rw [exchanges, exchange?]
  split
  · rfl
  · rename_i concerned use huse
    rw [if_neg]
    · rfl
    · rintro rfl
      exact h use huse

/-- The steps of a session are gone through one by one, those that concern a lexer apart from the
others. -/
@[elab_as_elim]
theorem exchanges_induction (number : Nat) {motive : Session → List Step → Prop}
    (nil : ∀ session, motive session [])
    (use : ∀ session step steps use, session.use? step = some (number, use) →
      motive (session.step step).2 steps → motive session (step :: steps))
    (other : ∀ session step steps, (∀ use, session.use? step ≠ some (number, use)) →
      motive (session.step step).2 steps → motive session (step :: steps))
    (session : Session) (steps : List Step) : motive session steps := by
  induction steps generalizing session with
  | nil => exact nil session
  | cons step steps ih =>
    by_cases hconcerned : ∃ use, session.use? step = some (number, use)
    · obtain ⟨concern, huse⟩ := hconcerned
      exact use session step steps concern huse (ih _)
    · exact other session step steps (not_exists.1 hconcerned) (ih _)

theorem exchanges_sublist (number : Nat) (session : Session) (steps : List Step) :
    ((session.exchanges number steps).map Exchange.answer).Sublist (session.answers steps) := by
  induction session, steps using exchanges_induction number with
  | nil session => exact .slnil
  | use session step steps use huse ih =>
    rw [exchanges_of_use huse]
    exact ih.cons_cons _
  | other session step steps hother ih =>
    rw [exchanges_of_other hother]
    exact ih.cons _

/-! ### What a step does -/

/-- All that a step can do, told by the use that it makes of a lexer. -/
inductive Acts (session : Session) : Step → Option (Nat × Use) → Answer → Session → Prop where
  | other {step : Step} {answer : Answer} {contexts : Contexts} :
      Acts session step none answer { session with contexts := contexts }
  | create {name source : String} {file : Option String} {number : Nat} {distinguish : Bool}
      (number_eq : session.lexers.length = number)
      (active_eq : session.contexts.active.distinguishes = distinguish) :
      Acts session (.create name source file) (some (number, .create source file distinguish))
        (.created { source := source, file := file, distinguish := distinguish })
        (session.create { source := source, file := file, distinguish := distinguish } name)
  | iterate {step : Step} {number : Nat} {lexer : Lexer} {name : String} {iterator : Iterator}
      (lexer_eq : session.lexers[number]? = some lexer) :
      Acts session step (some (number, .iterate name iterator)) (.opened lexer)
        (session.place name number iterator)
  | demand {step : Step} {number : Nat} {lexer : Lexer} {name : String} {iterator : Iterator}
      (demand : Demand) (lexer_eq : session.lexers[number]? = some lexer)
      (iterator_eq : session.iterators.lookup name = some (number, iterator)) :
      Acts session step (some (number, .demand demand name)) (demand.meet lexer iterator).1
        ((session.place name number (demand.meet lexer iterator).2.1).update number
          (demand.meet lexer iterator).2.2)

theorem lexer?_eq_some {name : String} {number : Nat} {lexer : Lexer} :
    session.lexer? name = some (number, lexer) ↔
      session.names.lookup name = some number ∧ session.lexers[number]? = some lexer := by
  simp only [lexer?, Option.bind_eq_bind, Option.bind_eq_some_iff, Option.pure_def,
    Option.some.injEq, Prod.mk.injEq]
  constructor
  · rintro ⟨number, hname, lexer, hlexer, rfl, rfl⟩
    exact ⟨hname, hlexer⟩
  · rintro ⟨hname, hlexer⟩
    exact ⟨number, hname, lexer, hlexer, rfl, rfl⟩

theorem iterator?_eq_some {name : String} {number : Nat} {lexer : Lexer} {iterator : Iterator} :
    session.iterator? name = some (number, lexer, iterator) ↔
      session.iterators.lookup name = some (number, iterator) ∧
        session.lexers[number]? = some lexer := by
  simp only [iterator?, Option.bind_eq_bind, Option.bind_eq_some_iff, Option.pure_def,
    Option.some.injEq, Prod.mk.injEq]
  constructor
  · rintro ⟨⟨number, iterator⟩, hname, lexer, hlexer, rfl, rfl, rfl⟩
    exact ⟨hname, hlexer⟩
  · rintro ⟨hname, hlexer⟩
    exact ⟨(number, iterator), hname, lexer, hlexer, rfl, rfl, rfl⟩

theorem acts_openIterator (session : Session) (step : Step) (lexer name : String)
    (iterator : Iterator) :
    Acts session step
      ((session.lexer? lexer).map fun found => (found.1, .iterate name iterator))
      (session.openIterator lexer name iterator).1
      (session.openIterator lexer name iterator).2 := by
  rw [openIterator]
  cases hlexer : session.lexer? lexer with
  | none => exact .other
  | some found => exact .iterate (lexer?_eq_some.1 hlexer).2

theorem acts (session : Session) (step : Step) :
    Acts session step (session.use? step) (session.step step).1 (session.step step).2 := by
  cases step with
  | create name source file => exact .create rfl rfl
  | tokens lexer name => exact session.acts_openIterator _ lexer name .tokens
  | raw lexer name => exact session.acts_openIterator _ lexer name .raw
  | next name =>
    rw [use?, Session.step]
    cases hiterator : session.iterator? name with
    | none => exact .other
    | some found =>
      obtain ⟨hname, hlexer⟩ := iterator?_eq_some.1 hiterator
      exact .demand .next hlexer hname
  | drain name =>
    rw [use?, Session.step]
    cases hiterator : session.iterator? name with
    | none => exact .other
    | some found =>
      obtain ⟨hname, hlexer⟩ := iterator?_eq_some.1 hiterator
      exact .demand .drain hlexer hname
  | _ => exact .other

theorem acts_of_use (huse : session.use? step = some (number, use)) :
    Acts session step (some (number, use)) (session.step step).1 (session.step step).2 := by
  rw [← huse]
  exact session.acts step

/-! ### Numbers in range -/

theorem length_create (session : Session) (lexer : Lexer) (name : String) :
    (session.create lexer name).lexers.length = session.lexers.length + 1 :=
  List.length_append

theorem length_update (session : Session) (number : Nat) (lexer : Lexer) :
    (session.update number lexer).lexers.length = session.lexers.length :=
  List.length_set

/-- Names and iterators belong to lexers that have been made. -/
structure Bounded (session : Session) : Prop where
  names : ∀ {name : String} {number : Nat}, session.names.lookup name = some number →
    number < session.lexers.length
  iterators : ∀ {name : String} {number : Nat} {iterator : Iterator},
    session.iterators.lookup name = some (number, iterator) → number < session.lexers.length

theorem bounded_empty (contexts : Contexts) : Bounded { contexts := contexts } :=
  ⟨nofun, nofun⟩

theorem Bounded.place (h : session.Bounded) {number : Nat}
    (hnumber : number < session.lexers.length) (name : String) (iterator : Iterator) :
    (session.place name number iterator).Bounded := by
  refine ⟨h.names, fun {other _ _} hother => ?_⟩
  rw [Session.place, lookup_replace] at hother
  split at hother
  · obtain ⟨rfl, -⟩ := Prod.mk.inj (Option.some.inj hother)
    exact hnumber
  · exact h.iterators hother

theorem Bounded.update (h : session.Bounded) (number : Nat) (lexer : Lexer) :
    (session.update number lexer).Bounded := by
  refine ⟨fun hname => ?_, fun hiterator => ?_⟩
  · rw [length_update]
    exact h.names hname
  · rw [length_update]
    exact h.iterators hiterator

theorem Bounded.create (h : session.Bounded) (lexer : Lexer) (name : String) :
    (session.create lexer name).Bounded := by
  refine ⟨fun {other _} hname => ?_, fun hiterator => ?_⟩
  · rw [length_create]
    rw [Session.create, List.lookup_cons] at hname
    split at hname
    · obtain rfl := Option.some.inj hname
      exact Nat.lt_succ_self _
    · exact Nat.lt_succ_of_lt (h.names hname)
  · rw [length_create]
    exact Nat.lt_succ_of_lt (h.iterators hiterator)

section Acts

variable {concern : Option (Nat × Use)} {answer : Answer} {after : Session}

theorem Acts.bounded (h : Acts session step concern answer after) (hbounded : session.Bounded) :
    after.Bounded := by
  cases h with
  | other => exact ⟨hbounded.names, hbounded.iterators⟩
  | create => exact hbounded.create _ _
  | iterate hlexer => exact hbounded.place (List.getElem?_eq_some_iff.1 hlexer).1 _ _
  | demand demand hlexer =>
    exact (hbounded.place (List.getElem?_eq_some_iff.1 hlexer).1 _ _).update _ _

theorem Acts.length_le (h : Acts session step concern answer after) :
    session.lexers.length ≤ after.lexers.length := by
  cases h with
  | create =>
    rw [length_create]
    exact Nat.le_succ _
  | demand =>
    rw [length_update]
    exact Nat.le_refl _
  | _ => exact Nat.le_refl _

theorem Acts.length_of_create {source : String} {file : Option String} {distinguish : Bool}
    (h : Acts session step (some (number, .create source file distinguish)) answer after) :
    session.lexers.length = number ∧ number < after.lexers.length := by
  cases h with
  | create hnumber =>
    refine ⟨hnumber, ?_⟩
    rw [length_create, hnumber]
    exact Nat.lt_succ_self number

end Acts

/-! ### A lexer by itself -/

/-- The lexer of a number is the first one of another session, and so are the iterators over it that
still have their names. -/
structure Mirrors (number : Nat) (session alone : Session) : Prop where
  lexer_eq : session.lexers[number]? = alone.lexers[0]?
  iterators : ∀ {name : String} {iterator : Iterator},
    session.iterators.lookup name = some (number, iterator) →
      alone.iterators.lookup name = some (0, iterator)

section Mirrors

variable {concern : Option (Nat × Use)} {step' : Step} {answer answer' : Answer}
  {after after' : Session} {other : Nat}

theorem Mirrors.place (h : Mirrors number session alone) (name : String) (iterator : Iterator) :
    Mirrors number (session.place name number iterator) (alone.place name 0 iterator) := by
  refine ⟨h.lexer_eq, fun {key found} hfound => ?_⟩
  rw [Session.place, lookup_replace] at hfound ⊢
  by_cases hkey : key = name
  · rw [if_pos hkey] at hfound ⊢
    obtain ⟨-, rfl⟩ := Prod.mk.inj (Option.some.inj hfound)
    rfl
  · rw [if_neg hkey] at hfound ⊢
    exact h.iterators hfound

theorem Mirrors.update (h : Mirrors number session alone) (hnumber : number < session.lexers.length)
    (hfirst : 0 < alone.lexers.length) (lexer : Lexer) :
    Mirrors number (session.update number lexer) (alone.update 0 lexer) := by
  refine ⟨?_, h.iterators⟩
  rw [Session.update, Session.update, List.getElem?_set_self hnumber,
    List.getElem?_set_self hfirst]

theorem Mirrors.create (hnumber : session.lexers.length = number)
    (hfirst : alone.lexers.length = 0) (hbounded : session.Bounded) (lexer : Lexer)
    (name name' : String) :
    Mirrors number (session.create lexer name) (alone.create lexer name') := by
  refine ⟨?_, fun hiterator => ?_⟩
  · rw [Session.create, Session.create, ← hnumber, ← hfirst, List.getElem?_concat_length,
      List.getElem?_concat_length]
  · have hlt := hbounded.iterators hiterator
    omega

/-- What a step does with the lexer, a step that does the same with it does where it is by
itself. -/
theorem Mirrors.of_use (h : Mirrors number session alone) (hbounded : session.Bounded)
    (hacts : Acts session step (some (number, use)) answer after)
    (hacts' : Acts alone step' (some (0, use)) answer' after') :
    answer = answer' ∧ Mirrors number after after' := by
  cases hacts with
  | create hnumber =>
    cases hacts' with
    | create hfirst => exact ⟨rfl, .create hnumber hfirst hbounded _ _ _⟩
  | iterate hlexer =>
    cases hacts' with
    | iterate hlexer' =>
      rw [h.lexer_eq, hlexer'] at hlexer
      obtain rfl := Option.some.inj hlexer
      exact ⟨rfl, h.place _ _⟩
  | demand demand hlexer hiterator =>
    cases hacts' with
    | demand demand hlexer' hiterator' =>
      have hnumber := (List.getElem?_eq_some_iff.1 hlexer).1
      have hfirst := (List.getElem?_eq_some_iff.1 hlexer').1
      rw [h.iterators hiterator] at hiterator'
      obtain ⟨-, rfl⟩ := Prod.mk.inj (Option.some.inj hiterator')
      rw [h.lexer_eq, hlexer'] at hlexer
      obtain rfl := Option.some.inj hlexer
      exact ⟨rfl, (h.place _ _).update hnumber hfirst _⟩

theorem Mirrors.place_other (h : Mirrors number session alone) (hother : other ≠ number)
    (name : String) (iterator : Iterator) :
    Mirrors number (session.place name other iterator) alone := by
  refine ⟨h.lexer_eq, fun {key found} hfound => ?_⟩
  rw [Session.place, lookup_replace] at hfound
  by_cases hkey : key = name
  · rw [if_pos hkey] at hfound
    exact absurd (Prod.mk.inj (Option.some.inj hfound)).1 hother
  · rw [if_neg hkey] at hfound
    exact h.iterators hfound

theorem Mirrors.update_other (h : Mirrors number session alone) (hother : other ≠ number)
    (lexer : Lexer) : Mirrors number (session.update other lexer) alone := by
  refine ⟨?_, h.iterators⟩
  rw [Session.update, List.getElem?_set_ne hother, h.lexer_eq]

theorem Mirrors.create_other (h : Mirrors number session alone)
    (hother : session.lexers.length ≠ number) (lexer : Lexer) (name : String) :
    Mirrors number (session.create lexer name) alone := by
  refine ⟨?_, h.iterators⟩
  rw [← h.lexer_eq]
  by_cases hnumber : number < session.lexers.length
  · rw [Session.create, List.getElem?_append_left hnumber]
  · have hlength : (session.create lexer name).lexers.length ≤ number := by
      rw [length_create]
      omega
    rw [List.getElem?_eq_none (Nat.le_of_not_lt hnumber), List.getElem?_eq_none hlength]

theorem Mirrors.of_other (h : Mirrors number session alone)
    (hacts : Acts session step concern answer after)
    (hother : ∀ use, concern ≠ some (number, use)) : Mirrors number after alone := by
  cases hacts with
  | other => exact ⟨h.lexer_eq, h.iterators⟩
  | create hnumber =>
    apply h.create_other
    rintro rfl
    rw [hnumber] at hother
    exact hother _ rfl
  | iterate =>
    apply h.place_other
    rintro rfl
    exact hother _ rfl
  | @demand _ concerned =>
    have hne : concerned ≠ number := by
      rintro rfl
      exact hother _ rfl
    exact (h.place_other hne _ _).update_other hne _

end Mirrors

/-- Steps that do nothing but what is listed with the first lexer of a session. -/
inductive Performs : Session → List Step → List Use → Prop where
  | nil {alone : Session} : Performs alone [] []
  | cons {alone : Session} {step : Step} {use : Use} {steps : List Step} {uses : List Use}
      (use_eq : alone.use? step = some (0, use)) (tail : Performs (alone.step step).2 steps uses) :
      Performs alone (step :: steps) (use :: uses)

/-- The answers to the steps on a lexer are those that it gives by itself. -/
theorem Mirrors.answers_eq (h : Mirrors number session alone) (hbounded : session.Bounded)
    {kept : List Step}
    (hperforms : Performs alone kept ((session.exchanges number steps).map Exchange.use)) :
    alone.answers kept = (session.exchanges number steps).map Exchange.answer := by
  -- Steps that do not concern the lexer are passed over here, while `alone` stays where it is.
  induction session, steps using exchanges_induction number generalizing alone kept with
  | nil session =>
    cases hperforms
    rfl
  | use session step steps use huse ih =>
    rw [exchanges_of_use huse] at hperforms ⊢
    cases hperforms with
    | cons huse' htail =>
      obtain ⟨hanswer, hnext⟩ := h.of_use hbounded (acts_of_use huse) (acts_of_use huse')
      rw [List.map_cons, hanswer, ← ih hnext ((session.acts step).bounded hbounded) htail]
      rfl
  | other session step steps hother ih =>
    rw [exchanges_of_other hother] at hperforms ⊢
    exact ih (h.of_other (session.acts step) hother) ((session.acts step).bounded hbounded)
      hperforms

/-! ### Leaving out the other steps -/

/-- Another session has its first lexer under the names of the lexer of a number, and makes it as
that was made. -/
structure Knows (number : Nat) (distinguish : Bool) (session alone : Session) : Prop
    extends Mirrors number session alone where
  active : alone.contexts.active.distinguishes = distinguish
  names : ∀ {name : String}, session.names.lookup name = some number →
    alone.names.lookup name = some 0

section Knows

variable {concern : Option (Nat × Use)} {answer answer' : Answer} {after after' : Session}
  {distinguish : Bool}

theorem Knows.lexer?_eq (h : Knows number distinguish session alone) {name : String}
    {lexer : Lexer} (hlexer : session.lexer? name = some (number, lexer)) :
    alone.lexer? name = some (0, lexer) := by
  obtain ⟨hname, hlexer⟩ := lexer?_eq_some.1 hlexer
  exact lexer?_eq_some.2 ⟨h.names hname, h.lexer_eq.symm.trans hlexer⟩

theorem Knows.iterator?_eq (h : Knows number distinguish session alone) {name : String}
    {lexer : Lexer} {iterator : Iterator}
    (hiterator : session.iterator? name = some (number, lexer, iterator)) :
    alone.iterator? name = some (0, lexer, iterator) := by
  obtain ⟨hname, hlexer⟩ := iterator?_eq_some.1 hiterator
  exact iterator?_eq_some.2 ⟨h.iterators hname, h.lexer_eq.symm.trans hlexer⟩

theorem Knows.length_eq (h : Knows number distinguish session alone)
    (hnumber : session.lexers.length = number) : alone.lexers.length = 0 := by
  have hnone := h.lexer_eq
  rw [List.getElem?_eq_none (Nat.le_of_eq hnumber)] at hnone
  exact Nat.le_zero.1 (List.getElem?_eq_none_iff.1 hnone.symm)

theorem Knows.use?_eq (h : Knows number distinguish session alone)
    (huse : session.use? step = some (number, use))
    (hcreate : ∀ source file active, use = .create source file active → active = distinguish) :
    alone.use? step = some (0, use) := by
  have hiterate {lexer name : String} {iterator : Iterator}
      (huse : (session.lexer? lexer).map (fun found => (found.1, Use.iterate name iterator)) =
        some (number, use)) :
      (alone.lexer? lexer).map (fun found => (found.1, Use.iterate name iterator)) =
        some (0, use) := by
    obtain ⟨⟨concerned, found⟩, hfound, heq⟩ := Option.map_eq_some_iff.1 huse
    obtain ⟨rfl, rfl⟩ := Prod.mk.inj heq
    rw [h.lexer?_eq hfound, Option.map_some]
  have hdemand {name : String} {demand : Demand}
      (huse : (session.iterator? name).map (fun found => (found.1, Use.demand demand name)) =
        some (number, use)) :
      (alone.iterator? name).map (fun found => (found.1, Use.demand demand name)) =
        some (0, use) := by
    obtain ⟨⟨concerned, lexer, iterator⟩, hfound, heq⟩ := Option.map_eq_some_iff.1 huse
    obtain ⟨rfl, rfl⟩ := Prod.mk.inj heq
    rw [h.iterator?_eq hfound, Option.map_some]
  cases step with
  | create name source file =>
    obtain ⟨hnumber, rfl⟩ := Prod.mk.inj (Option.some.inj huse)
    rw [use?, h.length_eq hnumber, h.active, hcreate source file _ rfl]
  | tokens lexer name => exact hiterate huse
  | raw lexer name => exact hiterate huse
  | next name => exact hdemand huse
  | drain name => exact hdemand huse
  | _ => cases huse

theorem Knows.of_use (h : Knows number distinguish session alone) (hbounded : session.Bounded)
    (hacts : Acts session step (some (number, use)) answer after)
    (hacts' : Acts alone step (some (0, use)) answer' after') :
    Knows number distinguish after after' := by
  have hmirrors := (h.toMirrors.of_use hbounded hacts hacts').2
  cases hacts with
  | create hnumber =>
    cases hacts' with
    | create hfirst =>
      refine ⟨hmirrors, h.active, fun {key} hkey => ?_⟩
      rw [Session.create, List.lookup_cons] at hkey ⊢
      split at hkey
      · rw [hfirst]
      · have hlt := hbounded.names hkey
        omega
  | iterate =>
    cases hacts' with
    | iterate => exact ⟨hmirrors, h.active, h.names⟩
  | demand =>
    cases hacts' with
    | demand => exact ⟨hmirrors, h.active, h.names⟩

theorem Knows.of_other (h : Knows number distinguish session alone)
    (hacts : Acts session step concern answer after)
    (hother : ∀ use, concern ≠ some (number, use)) : Knows number distinguish after alone := by
  have hmirrors := h.toMirrors.of_other hacts hother
  cases hacts with
  | create hnumber =>
    refine ⟨hmirrors, h.active, fun {key} hkey => ?_⟩
    rw [Session.create, List.lookup_cons] at hkey
    split at hkey
    · rw [← hnumber, Option.some.inj hkey] at hother
      exact absurd rfl (hother _)
    · exact h.names hkey
  | _ => exact ⟨hmirrors, h.active, h.names⟩

theorem Knows.performs (h : Knows number distinguish session alone) (hbounded : session.Bounded)
    (hcreate : ∀ source file active,
      .create source file active ∈ (session.exchanges number steps).map Exchange.use →
        active = distinguish) :
    Performs alone ((session.exchanges number steps).map Exchange.step)
      ((session.exchanges number steps).map Exchange.use) := by
  induction session, steps using exchanges_induction number generalizing alone with
  | nil session => exact .nil
  | use session step steps use huse ih =>
    rw [exchanges_of_use huse, List.map_cons] at hcreate ⊢
    have huse' : alone.use? step = some (0, use) := by
      apply h.use?_eq huse
      rintro source file active rfl
      exact hcreate source file active List.mem_cons_self
    have hnext := h.of_use hbounded (acts_of_use huse) (acts_of_use huse')
    exact .cons huse' (ih hnext ((session.acts step).bounded hbounded)
      fun source file active hmem => hcreate source file active (List.mem_cons_of_mem _ hmem))
  | other session step steps hother ih =>
    rw [exchanges_of_other hother] at hcreate ⊢
    exact ih (h.of_other (session.acts step) hother) ((session.acts step).bounded hbounded) hcreate

end Knows

theorem create_not_mem (hnumber : number < session.lexers.length) (source : String)
    (file : Option String) (distinguish : Bool) :
    .create source file distinguish ∉ (session.exchanges number steps).map Exchange.use := by
  induction session, steps using exchanges_induction number with
  | nil session => exact nofun
  | use session step steps use huse ih =>
    have htail := ih (Nat.lt_of_lt_of_le hnumber (session.acts step).length_le)
    rw [exchanges_of_use huse, List.map_cons, List.mem_cons, not_or]
    refine ⟨?_, htail⟩
    rintro rfl
    exact absurd (acts_of_use huse).length_of_create.1 (Nat.ne_of_gt hnumber)
  | other session step steps hother ih =>
    rw [exchanges_of_other hother]
    exact ih (Nat.lt_of_lt_of_le hnumber (session.acts step).length_le)

/-- A lexer is made at most once, so there is one truth of the setting that counts. -/
theorem exists_distinguish (number : Nat) (session : Session) (steps : List Step) :
    ∃ distinguish, ∀ source file active,
      .create source file active ∈ (session.exchanges number steps).map Exchange.use →
        active = distinguish := by
  induction session, steps using exchanges_induction number with
  | nil session => exact ⟨true, nofun⟩
  | use session step steps use huse ih =>
    obtain ⟨distinguish, htail⟩ := ih
    rw [exchanges_of_use huse]
    cases use with
    | create source file made =>
      refine ⟨made, fun source file active hmem => ?_⟩
      obtain heq | hmem := List.mem_cons.1 hmem
      · exact (Use.create.inj heq).2.2
      · exact absurd hmem (create_not_mem (acts_of_use huse).length_of_create.2 _ _ _)
    | _ =>
      refine ⟨distinguish, fun source file active hmem => ?_⟩
      obtain heq | hmem := List.mem_cons.1 hmem
      · cases heq
      · exact htail _ _ _ hmem
  | other session step steps hother ih =>
    rw [exchanges_of_other hother]
    exact ih

theorem mirrors_empty (number : Nat) (settings : Settings) :
    Mirrors number {} { contexts := { active := settings } } :=
  ⟨rfl, nofun⟩

theorem answers_of_uses {settings : Settings}
    (hcreate : ∀ source file active,
      .create source file active ∈ (exchanges number {} steps).map Exchange.use →
        settings.distinguishes = active) {other : Nat} {steps' : List Step}
    (huses : (exchanges other {} steps').map Exchange.use =
      (exchanges number {} steps).map Exchange.use) :
    answers { contexts := { active := settings } } ((exchanges number {} steps).map Exchange.step) =
      (exchanges other {} steps').map Exchange.answer := by
  have hknows : Knows number settings.distinguishes {} { contexts := { active := settings } } :=
    ⟨mirrors_empty number settings, rfl, nofun⟩
  have hperforms := hknows.performs (bounded_empty {})
    fun source file active hmem => (hcreate source file active hmem).symm
  rw [← huses] at hperforms
  exact (mirrors_empty other settings).answers_eq (bounded_empty {}) hperforms

/-- **Isolation.** In any session, the answers to the steps on one lexer are told by what these
steps do with it: its source and file, the truth of one setting when it is made, and the iterators
that are made over it, pulled from and drained, in order. So they are the same in any other session
that does the same with a lexer of its own, whatever else is done in either. And they are the same
where all other steps are left out, in a session whose settings have the same truth. -/
theorem isolation (number : Nat) (steps : List Step) :
    let concerned := exchanges number {} steps
    (concerned.map Exchange.answer).Sublist (answers {} steps) ∧
      (∀ other steps',
        (exchanges other {} steps').map Exchange.use = concerned.map Exchange.use →
          (exchanges other {} steps').map Exchange.answer = concerned.map Exchange.answer) ∧
      ∀ settings,
        (∀ source file distinguish,
          .create source file distinguish ∈ concerned.map Exchange.use →
            settings.distinguishes = distinguish) →
          answers {} (.set settings :: concerned.map Exchange.step) =
            .active settings :: concerned.map Exchange.answer := by
  intro concerned
  refine ⟨exchanges_sublist number {} steps, ?_, ?_⟩
  · intro other steps' huses
    obtain ⟨distinguish, hcreate⟩ := exists_distinguish number {} steps
    have hsettings : ∀ source file active,
        .create source file active ∈ concerned.map Exchange.use →
          Settings.distinguishes { distinguishOverflow := .bool distinguish } = active :=
      fun source file active hmem => (hcreate source file active hmem).symm
    exact (answers_of_uses hsettings huses).symm.trans (answers_of_uses hsettings rfl)
  · intro settings hcreate
    exact congrArg (Answer.active settings :: ·) (answers_of_uses hcreate rfl)

/-- The name of the lexer is taken by another one while an iterator is suspended, the settings
change, a strict run fails, and another lexer is made before. -/
theorem isolation_renamed :
    let source := "99999999999999999999\n x"
    let lenient : Settings := { distinguishOverflow := .int 0 }
    let first : List Step :=
      [.create "a" source none, .tokens "a" "i", .next "i", .set lenient, .create "a" "b" none,
        .lex (some { strict := .bool true }) "#" none, .raw "a" "j", .next "i", .drain "j",
        .drain "i"]
    let second : List Step :=
      [.enter "c" lenient, .create "b" source none, .leave "c", .create "a" source none,
        .raw "b" "i", .next "i", .tokens "a" "i", .next "i", .next "i", .drain "i"]
    let uses : List Use :=
      [.create source none true, .iterate "i" .tokens, .demand .next "i", .demand .next "i",
        .demand .drain "i"]
    let alone : List Step :=
      [.create "a" source none, .tokens "a" "i", .next "i", .next "i", .drain "i"]
    (exchanges 0 {} first).map Exchange.use = uses ∧
      (exchanges 1 {} second).map Exchange.use = uses ∧
      (exchanges 1 {} second).map Exchange.answer = (exchanges 0 {} first).map Exchange.answer ∧
      answers {} (.set { distinguishOverflow := .string "yes" } :: alone) =
        .active { distinguishOverflow := .string "yes" } ::
          (exchanges 0 {} first).map Exchange.answer := by
  intro source lenient first second uses alone
  have huses : (exchanges 0 {} first).map Exchange.use = uses := by cbv
  have huses' : (exchanges 1 {} second).map Exchange.use = uses := by cbv
  have hkept : (exchanges 0 {} first).map Exchange.step = alone := by cbv
  obtain ⟨-, hsame, halone⟩ := isolation 0 first
  refine ⟨huses, huses', hsame 1 second (huses'.trans huses.symm), ?_⟩
  rw [← hkept]
  apply halone
  intro source' file distinguish hmem
  rw [huses] at hmem
  obtain heq | hmem := List.mem_cons.1 hmem
  · rw [(Use.create.inj heq).2.2]
    rfl
  · simp at hmem

end Session

end Offside
