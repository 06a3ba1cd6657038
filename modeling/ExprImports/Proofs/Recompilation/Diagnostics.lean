import ExprImports.Proofs.Binding.Faults
import ExprImports.Proofs.Surface.Faults
import ExprImports.SurfaceCompiler

/-!
# Diagnostics point into the text

Every diagnostic of the compiler of the expression language carries the text of its session
and a stretch of it. The stretch begins and ends between characters of the text, so a report
can always cut it out.

**Three phases.** The lexer blames characters and the parser blames tokens. The binder blames
parts of the expression, and each of them was read from a segment of the tokens, whose
first and last token give its ends (`Fits.inText`). The final conversion to a target blames
the whole text.
-/

set_option autoImplicit false

namespace ExprImports

/-- The diagnostic carries the text of the session and a stretch of it, which ends inside the
text and whose ends are boundaries of characters. -/
structure Diagnostic.PointsInto (diagnostic : Diagnostic) (session : Session) : Prop where
  text : diagnostic.text = session.text
  place : ∃ span, diagnostic.span = some span ∧
    span.offset + span.length ≤ byteLength session.text.toList ∧
      span.InText session.text.toList

namespace SurfaceCompiler

variable {catalog : Catalog} {session : Session} {environment : Environment}
  {report : Diagnostic}

theorem pointsInto_diagnostic (message : String) {span : Span}
    (inText : span.InText session.text.toList) :
    (diagnostic session message span).PointsInto session :=
  ⟨rfl, span, rfl, inText.stop_le, inText⟩

/-- What is wrong before binding. -/
theorem pointsInto_of_read_error (failed : read session = .error report) :
    report.PointsInto session := by
  unfold read at failed
  split at failed
  next fault cannotCut =>
    cases failed
    exact pointsInto_diagnostic _ (Surface.inText_of_tokenize_error cannotCut)
  next tokens cut =>
    obtain ⟨fault, cannotRead, rfl⟩ := exists_of_mapError_eq_error failed
    have inText : ∀ token ∈ tokens, token.span.InText session.text.toList := by
      intro token inside
      exact Surface.inText_of_tokenize cut inside
    exact pointsInto_diagnostic _ (Surface.inText_of_parse_error inText cannotRead)

/-- Whatever occurs in the expression of a text was read from inside the text. -/
theorem inText_of_read {expression : Surface.Expression} (isRead : read session = .ok expression)
    {part : Surface.Part} (occurs : part.Occurs (.expression expression)) :
    part.span.InText session.text.toList := by
  unfold read at isRead
  split at isRead
  next => cases isRead
  next tokens cut => exact Surface.inText_of_occurs cut (mapError_eq_ok_iff.mp isRead) occurs

theorem pointsInto_of_compile_error
    (failed : compile catalog session environment = .error report) :
    report.PointsInto session := by
  rcases cases_of_bind_eq_error failed with cannotRead | ⟨expression, isRead, failed⟩
  · exact pointsInto_of_read_error cannotRead
  · obtain ⟨fault, cannotBind, rfl⟩ := exists_of_mapError_eq_error failed
    obtain ⟨part, occurs, place⟩ := Binding.exists_part_of_compile_error cannotBind
    have inText := inText_of_read isRead occurs
    rw [place] at inText
    exact pointsInto_diagnostic _ inText

theorem inText_wholeText (session : Session) :
    (wholeText session).InText session.text.toList := by
  refine ⟨⟨[], session.text.toList, rfl, rfl⟩, ⟨session.text.toList, [], by simp, ?_⟩⟩
  rw [Span.stop, wholeText, Nat.zero_add]

theorem pointsInto_of_retarget_error {compiled : Compiled} {target : TypeId}
    (failed : retarget catalog session compiled target = .error (.source report)) :
    report.PointsInto session := by
  unfold retarget at failed
  split at failed
  · cases failed
  · split at failed
    · cases failed
    · split at failed
      next fault cannotConvert =>
        have here := Binding.faultsAt_coerce (wholeText session) catalog compiled.body target
        rw [cannotConvert] at here
        cases here with
        | error =>
          cases failed
          exact pointsInto_diagnostic _ (inText_wholeText session)
      next => cases failed

/-- **Diagnostics point into the text**, whichever phase reports them and whether or not there
is a target. -/
theorem pointsInto_of_reported
    (reported : (compiler catalog).compileInferred session environment = .error (.source report) ∨
      ∃ target, (compiler catalog).compileTargeted session environment target =
        .error ⟨.source report⟩) :
    report.PointsInto session := by
  rcases reported with inferred | ⟨target, targeted⟩
  · obtain ⟨inner, failed, same⟩ := exists_of_mapError_eq_error inferred
    cases same
    exact pointsInto_of_compile_error failed
  · dsimp only [compiler] at targeted
    split at targeted
    next fault cannotCompile =>
      obtain ⟨inner, failed, rfl⟩ := exists_of_mapError_eq_error cannotCompile
      cases targeted
      exact pointsInto_of_compile_error failed
    next compiled compiles =>
      obtain ⟨inner, failed, same⟩ := exists_of_mapError_eq_error targeted
      cases same
      exact pointsInto_of_retarget_error failed

/-- A text whose last character takes two bytes and begins no token. -/
def accented : Session := { text := "1 + é", assemblies := [], namespaces := [] }

/-- What is wrong with the text. -/
def accentedReport : Diagnostic :=
  { message := "Unexpected character `é`", text := "1 + é", span := some ⟨4, 2⟩ }

theorem pointsInto_accented :
    (compiler Catalog.initial).compileInferred accented {} = .error (.source accentedReport) ∧
      accentedReport.PointsInto accented := by
  have cannotCut : Surface.tokenize accented.text = .error (.unexpectedCharacter 4 'é') := by
    with_unfolding_all rfl
  have cannotRead : read accented = .error accentedReport := by
    rw [read, cannotCut]
    rfl
  have reported : (compiler Catalog.initial).compileInferred accented {} =
      .error (.source accentedReport) := by
    dsimp only [compiler]
    rw [compile, cannotRead]
    rfl
  exact ⟨reported, pointsInto_of_reported (.inl reported)⟩

end SurfaceCompiler

end ExprImports
