/-
The order of entries in a report.  Subsystems with a place of their own come first, in the
canonical order; all others follow in the order in which they were named.
-/
import UsageReport.Value.Written

namespace UsageReport

open Text (CodePoint)

/-- The subsystems with a place of their own, in report order. -/
def canonicalOrder : List String := [
  "file_manager_", "business_connection_manager_", "channel_recommendation_manager_",
  "chat_manager_", "connection_state_manager_", "inline_message_manager_", "online_manager_",
  "promo_data_manager_", "star_manager_", "terms_of_service_manager_", "user_manager_",
  "account_manager_", "animations_manager_", "attach_menu_manager_", "audios_manager_",
  "auth_manager_", "autosave_manager_", "background_manager_", "boost_manager_",
  "bot_info_manager_", "business_manager_", "callback_queries_manager_",
  "common_dialog_manager_", "country_info_manager_", "dialog_action_manager_",
  "dialog_filter_manager_", "dialog_invite_link_manager_", "dialog_manager_",
  "dialog_participant_manager_", "documents_manager_", "download_manager_",
  "file_reference_manager_", "forum_topic_manager_", "game_manager_", "group_call_manager_",
  "inline_queries_manager_", "link_manager_", "message_import_manager_", "messages_manager_",
  "notification_manager_", "notification_settings_manager_", "option_manager_",
  "people_nearby_manager_", "poll_manager_", "privacy_manager_", "quick_reply_manager_",
  "reaction_manager_", "saved_messages_manager_", "sponsored_message_manager_",
  "statistics_manager_", "stickers_manager_", "story_manager_", "theme_manager_",
  "time_zone_manager_", "top_dialog_manager_", "transcription_manager_", "translation_manager_",
  "updates_manager_", "video_notes_manager_", "videos_manager_", "voice_notes_manager_",
  "web_pages_manager_"]

def canonicalTexts : List (List CodePoint) := canonicalOrder.map Text.points

/-- A list of names without repeats, each at its first place. -/
def firstPlaces (names : List (List CodePoint)) : List (List CodePoint) :=
  names.foldl (fun seen n => if seen.contains n then seen else seen ++ [n]) []

/-- The report order of a list of names. -/
def orderNames (names : List (List CodePoint)) : List (List CodePoint) :=
  let given := firstPlaces names
  canonicalTexts.filter given.contains ++ given.filter fun n => !canonicalTexts.contains n

/-- The report order of a list of values, which are told apart by their texts; the first that has
none is raised about. -/
def orderValues (names : List Value) : Except Failure (List (List CodePoint)) :=
  (names.mapM Value.written).map orderNames

end UsageReport
