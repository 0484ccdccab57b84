import Mathlib
import Offside.Proofs.PrintedNumbers
import Offside.Proofs.RawEntries

/-!
# Strict lexing

A strict run is the permissive run up to its first error: `Lexer.ending_run_strict` and
`Lexer.run_eq_of_errorsIn_eq_nil`. The failure that comes of it says its place and its message in
the words of the error entry, whatever the name of the file is: `Failure.message_ofError`.
`strict_lex` puts the two together.
-/

namespace Offside

/-! ### Runs -/

namespace Lexer

/-- A strict run is halted by the first error that the permissive run pulls. -/
theorem ending_run_strict (lexer : Lexer) (iterator : Iterator) {error : LexError}
    (h : (errorsIn (lexer.run false iterator).entries).head? = some error) :
    (lexer.run true iterator).ending = .halted error := by
  induction lexer, iterator using pull_induction with
  | finished lexer iterator houtcome =>
    rw [run_of_finished houtcome] at h
    cases h
  | failed lexer iterator fault houtcome =>
    rw [run_of_failed houtcome] at h
    cases h
  | entry lexer iterator entry houtcome ih =>
    rw [run_of_entry houtcome (.inl rfl)] at h
    cases entry with
    | error first =>
      obtain rfl : first = error := Option.some.inj h
      rw [run_of_error houtcome]
    | token token =>
      rw [run_of_entry houtcome (.inr rfl)]
      exact ih h

end Lexer

/-! ### The text of a failure -/

theorem colon_not_mem_toString (n : Int) : ':' ∉ (toString n).toList := by
  intro hmem
  obtain hdigit | hminus := Json.isDigit_or_eq_of_mem_toString hmem
  · exact absurd hdigit (by decide)
  · exact absurd hminus (by decide)

/-- What stands before the line: the name of the file and a colon, if there is a name. -/
def Location.origin : Option String → String
  | none => ""
  | some file => if file.isEmpty then "" else file ++ ":"

theorem Location.render_eq (location : Location) :
    location.render =
      origin location.file ++ toString location.line ++ ":" ++ toString location.column := by
  obtain ⟨line, column, offset, stop, file⟩ := location
  cases file with
  | none => simp [render, origin]
  | some file =>
    by_cases hempty : file = ""
    · simp [render, origin, hempty]
    · simp [render, origin, hempty, String.append_assoc]

namespace Failure

theorem place_eq {failure : Failure} {line column : Int} (hline : failure.line = some line)
    (hcolumn : failure.column = some column) :
    failure.place =
      Location.origin failure.file ++ toString line ++ ":" ++ toString column ++ ":" := by
  obtain ⟨error, line, column, file⟩ := failure
  obtain rfl : line = _ := hline
  obtain rfl : column = _ := hcolumn
  cases file <;> rfl

/-- Only the colon behind the last number is taken away, whatever stands before the number. -/
theorem dropColons_number (before : String) (n : Int) :
    dropColons (before ++ toString n ++ ":") = before ++ toString n := by
  obtain ⟨first, tail, hnumber, -⟩ := Json.int_head n
  have hne : (toString n).toList.reverse ≠ [] := by
    rw [hnumber]
    simp
  obtain ⟨c, rest, hreverse⟩ := List.exists_cons_of_ne_nil hne
  have hc : c ≠ ':' := by
    rintro rfl
    refine colon_not_mem_toString n (List.mem_reverse.1 ?_)
    rw [hreverse]
    exact List.mem_cons_self
  have hkept : (before ++ toString n).toList.reverse = c :: (rest ++ before.toList.reverse) := by
    rw [String.toList_append, List.reverse_append, hreverse, List.cons_append]
  have hall : (before ++ toString n ++ ":").toList.reverse =
      ':' :: c :: (rest ++ before.toList.reverse) := by
    rw [String.toList_append, List.reverse_append, hkept]
    rfl
  rw [dropColons, hall, List.dropWhile_cons_of_pos rfl,
    List.dropWhile_cons_of_neg (by simpa using hc), ← hkept, List.reverse_reverse,
    String.ofList_toList]

theorem message_eq {failure : Failure} {line column : Int} (hline : failure.line = some line)
    (hcolumn : failure.column = some column) :
    failure.message =
      Location.origin failure.file ++ toString line ++ ":" ++ toString column ++ " " ++
        failure.error.message := by
  have hplace := place_eq hline hcolumn
  have hne : failure.place.isEmpty = false := by
    rw [hplace]
    simp
  rw [message, hne, hplace, dropColons_number]
  rfl

theorem message_ofError (source : String) (error : LexError) (file : Option String) :
    (ofError source error file).message =
      (Location.ofSpan source error.span file).render ++ " " ++ error.message := by
  rw [Location.render_eq]
  exact message_eq rfl rfl

end Failure

/-! ### Sources -/

section Sources

variable {strict permissive : Settings} {source : String} {file : Option String}

theorem lexRun_strict (hstrict : strict.isStrict = true)
    (hsame : strict.distinguishes = permissive.distinguishes) (source : String) :
    lexRun strict source = (Lexer.ofSettings permissive source).run true .tokens := by
  rw [lexRun, hstrict, Lexer.ofSettings, Lexer.ofSettings, hsame]

theorem lexRun_permissive (hpermissive : permissive.isStrict = false) (source : String) :
    lexRun permissive source = (Lexer.ofSettings permissive source).run false .tokens := by
  rw [lexRun, hpermissive]

theorem lex_ne_failure (hpermissive : permissive.isStrict = false) (failure : Failure) :
    lex permissive source file ≠ .error (.failure failure) := by
  rw [lex_of_permissive hpermissive]
  cases (rawStream permissive source).fault <;> exact nofun

theorem lex_of_errorsIn_eq_nil (hstrict : strict.isStrict = true)
    (hpermissive : permissive.isStrict = false)
    (hsame : strict.distinguishes = permissive.distinguishes)
    (hclean : errorsIn (lexRun permissive source).entries = []) :
    lex strict source file = lex permissive source file := by
  have hrun := lexRun_permissive hpermissive source
  rw [hrun] at hclean
  rw [lex, lex, hrun, lexRun_strict hstrict hsame, Lexer.run_eq_of_errorsIn_eq_nil _ _ hclean]

theorem lex_of_head?_errorsIn (hstrict : strict.isStrict = true)
    (hpermissive : permissive.isStrict = false)
    (hsame : strict.distinguishes = permissive.distinguishes) {error : LexError}
    (hfirst : (errorsIn (lexRun permissive source).entries).head? = some error) :
    lex strict source file = .error (.failure (.ofError source error file)) := by
  rw [lexRun_permissive hpermissive] at hfirst
  rw [lex, lexRun_strict hstrict hsame, Run.result, Lexer.ending_run_strict _ _ hfirst]

end Sources

/-- **Strict lexing.** Under strict settings a source fails just when the permissive run over it
pulls an error. The failure is that of the first error: it has its line and its column, and its
message is the location and the message of the error. Without an error the outcome is the permissive
one. -/
theorem strict_lex {strict permissive : Settings} (hstrict : strict.isStrict = true)
    (hpermissive : permissive.isStrict = false)
    (hsame : strict.distinguishes = permissive.distinguishes) (source : String)
    (file : Option String) :
    let errors := errorsIn (lexRun permissive source).entries
    ((∃ failure, lex strict source file = .error (.failure failure)) ↔ errors ≠ []) ∧
      (∀ failure, lex strict source file = .error (.failure failure) →
        let location := Location.ofSpan source failure.error.span file
        errors.head? = some failure.error ∧
          failure.line = some location.line ∧ failure.column = some location.column ∧
          failure.message = location.render ++ " " ++ failure.error.message) ∧
      (errors = [] → lex strict source file = lex permissive source file) := by
  intro errors
  have hclean (h : errors = []) : lex strict source file = lex permissive source file :=
    lex_of_errorsIn_eq_nil hstrict hpermissive hsame h
  have hfirst {error : LexError} (h : errors.head? = some error) :
      lex strict source file = .error (.failure (.ofError source error file)) :=
    lex_of_head?_errorsIn hstrict hpermissive hsame h
  refine ⟨⟨?_, ?_⟩, ?_, hclean⟩
  · rintro ⟨failure, hfailure⟩ hnone
    rw [hclean hnone] at hfailure
    exact lex_ne_failure hpermissive failure hfailure
  · intro hsome
    exact ⟨_, hfirst (List.head?_eq_some_head hsome)⟩
  · intro failure hfailure location
    cases hhead : errors.head? with
    | none =>
      rw [hclean (List.head?_eq_none_iff.1 hhead)] at hfailure
      exact absurd hfailure (lex_ne_failure hpermissive failure)
    | some error =>
      rw [hfirst hhead] at hfailure
      obtain rfl := LexFault.failure.inj (Except.error.inj hfailure)
      exact ⟨rfl, rfl, rfl, Failure.message_ofError source error file⟩

/-- The name of the file ends in a colon, and the failure keeps it. -/
theorem strict_lex_colon :
    let strict : Settings := { strict := .bool true }
    let source := "x\n é # 99999999999999999999"
    strict.isStrict = true ∧ Settings.isStrict {} = false ∧
      strict.distinguishes = Settings.distinguishes {} ∧
      ∃ failure, lex strict source (some "a:") = .error (.failure failure) ∧
        failure.error = ⟨.unrecognizedToken, ⟨3, 5⟩, "é"⟩ ∧
        failure.line = some 2 ∧ failure.column = some 2 ∧
        failure.message = "a::2:2 " ++ failure.error.message := by
  intro strict source
  have hstrict : strict.isStrict = true := rfl
  have hpermissive : Settings.isStrict {} = false := rfl
  have herrors : errorsIn (lexRun {} source).entries =
      [⟨.unrecognizedToken, ⟨3, 5⟩, "é"⟩, ⟨.unrecognizedToken, ⟨6, 7⟩, "#"⟩,
        ⟨.integerOverflow, ⟨8, 28⟩, "99999999999999999999"⟩] := by cbv
  have hplace : Location.ofSpan source ⟨3, 5⟩ (some "a:") = ⟨2, 2, 3, 5, some "a:"⟩ := by cbv
  obtain ⟨hfails, hfirst, -⟩ := strict_lex hstrict hpermissive rfl source (some "a:")
  rw [herrors] at hfails hfirst
  obtain ⟨failure, hfailure⟩ := hfails.2 (List.cons_ne_nil _ _)
  obtain ⟨hhead, hline, hcolumn, hmessage⟩ := hfirst failure hfailure
  have herror := Option.some.inj hhead
  rw [← herror, hplace] at hline hcolumn hmessage
  refine ⟨rfl, rfl, rfl, failure, hfailure, herror.symm, hline, hcolumn, ?_⟩
  rw [hmessage, ← herror]
  rfl

end Offside
