import Mathlib.Tactic.SplitIfs
import Offside.Proofs.RawStream

/-!
# Arrangement

A run over the entries with layout puts behind each raw entry what is due there and goes on with the
blocks that are then open. `lex_of_rawStream`: where the raw stream of a source comes to its end,
the stream of the source is the arrangement of the raw one.
-/

namespace Offside

/-! ### Settling -/

namespace Layout

variable {widths widths' : Widths} {phase phase' : Phase} {entry : Entry}

theorem settleAll_of_none (h : settle widths phase = none) :
    settleAll widths phase = ([], widths) := by
  rw [settleAll]
  split <;> simp_all

theorem settleAll_of_some (h : settle widths phase = some (entry, phase', widths')) :
    settleAll widths phase =
      ((entry, widths') :: (settleAll widths' phase').1, (settleAll widths' phase').2) := by
  rw [settleAll]
  split <;> simp_all

theorem settle_ne_flush (h : settle widths phase = some (entry, phase', widths'))
    (hphase : ¬∃ place, phase = .flush place) : ¬∃ place, phase' = .flush place := by
  cases phase with
  | seek => simp [settle] at h
  | flush place => exact absurd ⟨place, rfl⟩ hphase
  | compare width place =>
    rw [settle] at h
    split_ifs at h <;> cases h <;> simp
  | close width place =>
    rw [settle] at h
    split_ifs at h <;> cases h <;> simp

theorem after_ne_flush (entry : Entry) : ¬∃ place, after entry = .flush place := by
  rintro ⟨place, h⟩
  unfold after at h
  split at h <;> cases h

/-- Induction on what is due, entry by entry. -/
@[elab_as_elim]
theorem settle_induction {motive : Widths → Phase → Prop}
    (settled : ∀ widths phase, settle widths phase = none → motive widths phase)
    (due : ∀ widths phase entry phase' widths',
      settle widths phase = some (entry, phase', widths') → motive widths' phase' →
        motive widths phase)
    (widths : Widths) (phase : Phase) : motive widths phase := by
  induction hmeasure : pending phase + widths.length using Nat.strongRecOn
    generalizing widths phase with
  | ind n ih =>
    subst hmeasure
    cases hsettle : settle widths phase with
    | none => exact settled widths phase hsettle
    | some found =>
      obtain ⟨entry, phase', widths'⟩ := found
      exact due widths phase entry phase' widths' hsettle (ih _ (settle_lt hsettle) _ _ rfl)

theorem arrange_cons (place : Int) (widths : Widths) (entry : Entry) (raw : List Entry) :
    (arrange place widths (entry :: raw)).1 =
      (entry, widths) :: ((settleAll widths (after entry)).1 ++
        (arrange place (settleAll widths (after entry)).2 raw).1) := rfl

end Layout

namespace Lexer

theorem pull_tokens (lexer : Lexer) : lexer.pull .tokens = lexer.pullSeek :=
  pull_of_seek (by simp [pullDue?, Layout.settle]) (by simp)

theorem pull_of_settle_none {lexer : Lexer} {phase : Phase}
    (h : Layout.settle lexer.widths phase = none) (hphase : ¬∃ place, phase = .flush place) :
    lexer.pull (.layout phase) = lexer.pull .tokens := by
  rw [pull_tokens]
  exact pull_of_seek (by simp [pullDue?, h]) hphase

theorem run_congr {lexer lexer' : Lexer} {iterator iterator' : Iterator}
    (h : lexer.pull iterator = lexer'.pull iterator') :
    lexer.run false iterator = lexer'.run false iterator' := by
  cases hpull : (lexer'.pull iterator').outcome with
  | finished => rw [run_of_finished hpull, run_of_finished (h ▸ hpull), h]
  | failed fault => rw [run_of_failed hpull, run_of_failed (h ▸ hpull), h]
  | entry entry => rw [run_of_entry hpull (.inl rfl), run_of_entry (h ▸ hpull) (.inl rfl), h]

/-! ### Runs with layout -/

theorem run_layout (lexer : Lexer) {phase : Phase} (hphase : ¬∃ place, phase = .flush place) :
    (lexer.run false (.layout phase)).entries =
        (Layout.settleAll lexer.widths phase).1.map Prod.fst ++
          ({ lexer with widths := (Layout.settleAll lexer.widths phase).2 }.run false
            .tokens).entries ∧
      (lexer.run false (.layout phase)).ending =
        ({ lexer with widths := (Layout.settleAll lexer.widths phase).2 }.run false
          .tokens).ending := by
  induction hwidths : lexer.widths, phase using Layout.settle_induction generalizing lexer with
  | settled widths phase hsettle =>
    subst hwidths
    rw [Layout.settleAll_of_none hsettle, run_congr (pull_of_settle_none hsettle hphase)]
    exact ⟨rfl, rfl⟩
  | due widths phase entry phase' widths' hsettle ih =>
    subst hwidths
    have hpull := pull_of_settle hsettle
    rw [Layout.settleAll_of_some hsettle, run_of_entry (congrArg Pull.outcome hpull) (.inl rfl),
      hpull]
    obtain ⟨hentries, hending⟩ :=
      ih { lexer with widths := widths' } (Layout.settle_ne_flush hsettle hphase) rfl
    exact ⟨congrArg (entry :: ·) hentries, hending⟩

theorem run_flush (lexer : Lexer) (place : Int) :
    (lexer.run false (.layout (.flush place))).entries =
        (Layout.settleAll lexer.widths (.flush place)).1.map Prod.fst ∧
      (lexer.run false (.layout (.flush place))).ending = .finished := by
  induction hlength : lexer.widths.length generalizing lexer with
  | zero =>
    have hsettle : Layout.settle lexer.widths (.flush place) = none := by
      simp [Layout.settle, List.length_eq_zero_iff.1 hlength]
    have hpull : lexer.pull (.layout (.flush place)) = lexer.finish :=
      pull_of_flush (by simp [pullDue?, hsettle])
    rw [run_of_finished (congrArg Pull.outcome hpull), Layout.settleAll_of_none hsettle]
    exact ⟨rfl, rfl⟩
  | succ n ih =>
    have hsettle : Layout.settle lexer.widths (.flush place) =
        some (Layout.deindentation place, .flush place, lexer.widths.tail) := by
      rw [Layout.settle, if_neg]
      intro hempty
      rw [List.isEmpty_iff.1 hempty] at hlength
      cases hlength
    have hpull := pull_of_settle hsettle
    obtain ⟨hentries, hending⟩ := ih { lexer with widths := lexer.widths.tail } (by simp [hlength])
    rw [run_of_entry (congrArg Pull.outcome hpull) (.inl rfl), hpull,
      Layout.settleAll_of_some hsettle]
    exact ⟨congrArg (Layout.deindentation place :: ·) hentries, hending⟩

/-- A run over a raw stream that comes to its end yields the arrangement of it. -/
theorem run_tokens (lexer : Lexer)
    (hfault : (lexer.scanner.stream lexer.distinguish).fault = none) :
    (lexer.run false .tokens).entries =
        (Layout.arrange lexer.stop lexer.widths
          (lexer.scanner.stream lexer.distinguish).entries).1.map Prod.fst ∧
      (lexer.run false .tokens).ending = .finished := by
  induction lexer using next_induction with
  | failed lexer fault hnext =>
    rw [Scanner.stream_of_failed hnext] at hfault
    cases hfault
  | finished lexer hnext =>
    have hseek := pull_tokens lexer
    rw [pullSeek_of_finished hnext] at hseek
    rw [Scanner.stream_of_finished hnext, run_congr hseek]
    exact run_flush lexer.moved lexer.stop
  | entry lexer entry hnext ih =>
    have hseek := pull_tokens lexer
    rw [Scanner.stream_of_entry hnext] at hfault ⊢
    rw [pullSeek_of_entry hnext] at hseek
    rw [run_of_entry (congrArg Pull.outcome hseek) (.inl rfl), hseek]
    obtain ⟨hdue, hdueEnding⟩ := run_layout lexer.moved (Layout.after_ne_flush entry)
    obtain ⟨hentries, hending⟩ :=
      ih (Layout.settleAll lexer.widths (Layout.after entry)).2 hfault
    refine ⟨?_, hdueEnding.trans hending⟩
    calc entry :: (lexer.moved.run false (.layout (Layout.after entry))).entries
        = entry :: ((Layout.settleAll lexer.widths (Layout.after entry)).1.map Prod.fst ++
            (Layout.arrange lexer.stop (Layout.settleAll lexer.widths (Layout.after entry)).2
              (lexer.moved.scanner.stream lexer.distinguish).entries).1.map Prod.fst) :=
          congrArg (entry :: ·) (hdue.trans (congrArg (_ ++ ·) hentries))
      _ = (Layout.arrange lexer.stop lexer.widths (entry ::
            (lexer.moved.scanner.stream lexer.distinguish).entries)).1.map Prod.fst := by
          rw [Layout.arrange_cons, List.map_cons, List.map_append]

end Lexer

/-! ### Sources -/

theorem lexRun_of_rawStream {settings : Settings} {source : String} {raw : List Entry}
    (hraw : rawStream settings source = { entries := raw }) :
    ((Lexer.ofSettings settings source).run false .tokens).entries =
        (Layout.arrange (Utf8.size source.toList) [] raw).1.map Prod.fst ∧
      ((Lexer.ofSettings settings source).run false .tokens).ending = .finished := by
  have hstream : (Lexer.ofSettings settings source).scanner.stream
      (Lexer.ofSettings settings source).distinguish = { entries := raw } := hraw
  have hrun := (Lexer.ofSettings settings source).run_tokens (congrArg RawStream.fault hstream)
  rw [hstream] at hrun
  exact hrun

theorem lex_of_rawStream {settings : Settings} {source : String} {raw : List Entry}
    (file : Option String) (hraw : rawStream settings source = { entries := raw })
    (hclean : errorsIn ((Layout.arrange (Utf8.size source.toList) [] raw).1.map Prod.fst) = []) :
    lex settings source file =
      .ok ((Layout.arrange (Utf8.size source.toList) [] raw).1.map Prod.fst) := by
  obtain ⟨hentries, hending⟩ := lexRun_of_rawStream hraw
  have hrun : lexRun settings source = (Lexer.ofSettings settings source).run false .tokens := by
    rw [lexRun]
    cases settings.isStrict with
    | false => rfl
    | true => exact Lexer.run_eq_of_errorsIn_eq_nil _ _ (by rw [hentries, hclean])
  rw [lex, hrun, Run.result, hending, hentries]

end Offside
