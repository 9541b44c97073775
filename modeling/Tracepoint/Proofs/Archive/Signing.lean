import Tracepoint.Proofs.Archive
import Tracepoint.Proofs.Files.Parts

/-!
# The name of a signed copy

The signed copy of an archive is named by the rule for instrumented archives, with another word in
front of the ending of the name (`Archive.signedPath_join`). It stands beside the archive, has its
extension, and is never the archive itself (`Archive.split_alike`).
-/

namespace Tracepoint.Archive

open Tracepoint.Path

variable {n : String}

/-- What the name of a signed copy has in front of its ending. -/
def signature : String := "-signed"

theorem signedPath_join (name : IsName n) (dir : Path) :
    signedPath (join dir n) = join (dropLast (join dir n)) (marked signature n) := by
  rw [signedPath, stem?, extension?, fileName?_join name, withFileName_join name, marked, ending]
  rcases splitName_cases n with ⟨-, split⟩ | ⟨stem, ext, -, -, -, split⟩
  · simp [split, signature]
  · have dotted : "-signed." = signature ++ "." := by decide
    simp [split, dotted, String.append_assoc]

theorem isName_signed (name : IsName n) : IsName (marked signature n) :=
  isName_marked (c := '-') (by decide) (by decide) (by decide) name

theorem parts_signedPath (name : IsName n) (dir : Path) :
    (signedPath (join dir n)).parts = (join dir (marked signature n)).parts := by
  rw [signedPath_join name, parts_join (isName_signed name), parts_join (isName_signed name),
    parts_dropLast_join name]

/-- **Both rules split a name at the same point.** So the signed copy of an archive stands in the
same directory and has the same extension, and wherever the paths lead, it is not written over the
archive. -/
theorem split_alike (name : IsName n) (dir : Path) : ∃ s t : String, s ++ t = n ∧
    instrumentedName n = s ++ "-instrumented" ++ t ∧
    (signedPath (join dir n)).parts = (join dir (s ++ "-signed" ++ t)).parts ∧
    (dropLast (signedPath (join dir n))).parts = dir.parts ∧
    extension? (signedPath (join dir n)) = extension? (join dir n) ∧
    ∀ workingDir, place workingDir (signedPath (join dir n)) ≠ place workingDir (join dir n) := by
  refine ⟨(splitName n).1, ending n, splitName_append_ending n, instrumentedName_eq n,
    parts_signedPath name dir, ?_, ?_, fun workingDir same => ?_⟩
  · rw [signedPath_join name, parts_dropLast_join (isName_signed name), parts_dropLast_join name]
  · rw [signedPath_join name, extension?, extension?, fileName?_join (isName_signed name),
      fileName?_join name, Option.bind_some, Option.bind_some, splitName_marked (by decide)]
  · rw [place_eq, parts_signedPath name, ← place_eq, place_join (isName_signed name),
      place_join name, List.append_cancel_left_eq, List.singleton_inj] at same
    exact marked_ne (by decide) n same

theorem split_alike_detour : IsName "my.app.apk" ∧ ∃ s t : String, s ++ t = "my.app.apk" ∧
    instrumentedName "my.app.apk" = s ++ "-instrumented" ++ t ∧
    (signedPath "out/.//my.app.apk").parts = (join "out/.//" (s ++ "-signed" ++ t)).parts := by
  have name : IsName "my.app.apk" := by decide
  obtain ⟨s, t, whole, instrumented, signed, -⟩ := split_alike name "out/.//"
  exact ⟨name, s, t, whole, instrumented, signed⟩

/-- The path to a signed copy is spelled without detours at its end. -/
example : signedPath "out/.//my.app.apk" = "out/my.app-signed.apk" := by decide

end Tracepoint.Archive
