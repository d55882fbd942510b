import Sonarr.Api.Series
import Sonarr.Lib.JsonText

namespace Sonarr.Api
open Lib

/-- The body that `writeError` writes. -/
def writeError (message : String) : String := "\x7b\"message\":\"" ++ message ++ "\"\x7d"

theorem toList_writeError (message : String) :
    (writeError message).toList =
      '\x7b' :: '"' :: ("message".toList ++ '"' :: ':' :: '"' :: (message.toList ++ ['"', '\x7d'])) := by
  have hopen : "\x7b\"message\":\"".toList =
      '\x7b' :: '"' :: ("message".toList ++ ['"', ':', '"']) := by decide
  have hclose : "\"\x7d".toList = ['"', '\x7d'] := String.toList_ofList
  unfold writeError
  rw [String.toList_append, String.toList_append, hopen, hclose]
  simp

/-- The body is an object whose only member is the message when every character of
the message stands for itself in a string literal. -/
theorem writeError_decodes_iff (message : String) :
    Json.readMember (writeError message).toList = some ("message".toList, message.toList) ↔
      ∀ c ∈ message.toList, Json.Plain c := by
  have hname : ("message".toList.all (fun c => decide (Json.Plain c))) = true := by decide +kernel
  rw [toList_writeError]
  refine Json.readMember_quoted_iff (fun c hc => ?_) message.toList
  exact of_decide_eq_true (List.all_eq_true.mp hname c hc)

/-- A series to add with a quote for its monitor mode. -/
def quotedMode : SeriesInput where
  title := "Show"
  tvdbID := 1
  slug := "show"
  status := "continuing"
  seriesType := "standard"
  path := "/tv/Show"
  monitored := true
  qualityProfileID := 1
  seasonFolder := none
  monitorNewItems := "all"
  seasons := []
  addOptions := some ⟨"\"", false⟩

theorem create_quotedMode_body :
    (create 0 quotedMode Library.empty).response = .badRequest "invalid monitor mode: \"" ∧
      Json.readMember (writeError "invalid monitor mode: \"").toList = none := by
  refine ⟨?_, ?_⟩
  · decide +kernel
  · decide +kernel

end Sonarr.Api
