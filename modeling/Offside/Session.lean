import Offside.Contexts
import Offside.Lexing

/-!
# Sessions

A session holds lexers, iterators over them and the active settings, all under names, and goes on
step by step. A lexer takes its settings when it is made, and an iterator stays with the lexer that
it was made from.
-/

namespace Offside

namespace Session

inductive Step where
  | create (lexer : String) (source : String) (file : Option String)
  | tokens (lexer iterator : String)
  | raw (lexer iterator : String)
  | next (iterator : String)
  | drain (iterator : String)
  | lex (settings : Option Settings) (source : String) (file : Option String)
  | set (settings : Settings)
  | reset
  | look
  | enter (context : String) (settings : Settings)
  | leave (context : String)
  | lookElsewhere
  deriving Repr

inductive Answer where
  | created (lexer : Lexer)
  | opened (lexer : Lexer)
  | pulled (outcome : Outcome) (lexer : Lexer)
  | drained (ending : Ending) (entries : List Entry) (lexer : Lexer)
  | lexed (result : Except LexFault (List Entry))
  | active (settings : Settings)
  | unknown (name : String)

end Session

/-- Lexers are counted in the order in which they were made. A name stands for the number of the
last lexer that got it, and an iterator belongs to the lexer of a number. -/
structure Session where
  contexts : Contexts := {}
  lexers : List Lexer := []
  names : List (String × Nat) := []
  iterators : List (String × Nat × Iterator) := []

namespace Session

def lexer? (session : Session) (name : String) : Option (Nat × Lexer) := do
  let number ← session.names.lookup name
  let lexer ← session.lexers[number]?
  return (number, lexer)

def iterator? (session : Session) (name : String) : Option (Nat × Lexer × Iterator) := do
  let (number, iterator) ← session.iterators.lookup name
  let lexer ← session.lexers[number]?
  return (number, lexer, iterator)

def create (lexer : Lexer) (name : String) (session : Session) : Session :=
  { session with
    lexers := session.lexers ++ [lexer]
    names := (name, session.lexers.length) :: session.names }

def place (name : String) (number : Nat) (iterator : Iterator) (session : Session) : Session :=
  { session with
    iterators := (name, number, iterator) :: session.iterators.filter (·.1 ≠ name) }

def update (number : Nat) (lexer : Lexer) (session : Session) : Session :=
  { session with lexers := session.lexers.set number lexer }

def openIterator (lexer name : String) (iterator : Iterator) (session : Session) :
    Answer × Session :=
  match session.lexer? lexer with
  | none => (.unknown lexer, session)
  | some (number, lexer) => (.opened lexer, session.place name number iterator)

def withContexts (session : Session) (contexts : Contexts) : Answer × Session :=
  (.active contexts.active, { session with contexts := contexts })

def step (session : Session) : Step → Answer × Session
  | .create name source file =>
    let lexer := Lexer.ofSettings session.contexts.active source file
    (.created lexer, session.create lexer name)
  | .tokens lexer name => session.openIterator lexer name .tokens
  | .raw lexer name => session.openIterator lexer name .raw
  | .next name =>
    match session.iterator? name with
    | none => (.unknown name, session)
    | some (number, lexer, iterator) =>
      let pull := lexer.pull iterator
      (.pulled pull.outcome pull.lexer,
        (session.place name number pull.iterator).update number pull.lexer)
  | .drain name =>
    match session.iterator? name with
    | none => (.unknown name, session)
    | some (number, lexer, iterator) =>
      let run := lexer.run false iterator
      (.drained run.ending run.entries run.lexer,
        (session.place name number .ended).update number run.lexer)
  | .lex settings source file =>
    (.lexed (lex (settings.getD session.contexts.active) source file), session)
  | .set settings => session.withContexts (session.contexts.set settings)
  | .reset => session.withContexts session.contexts.reset
  | .look => session.withContexts session.contexts
  | .enter context settings => session.withContexts (session.contexts.enter context settings)
  | .leave context => session.withContexts (session.contexts.leave context)
  | .lookElsewhere => (.active {}, session)

def answers (session : Session) : List Step → List Answer
  | [] => []
  | step :: steps =>
    let (answer, session) := session.step step
    answer :: session.answers steps

end Session

end Offside
