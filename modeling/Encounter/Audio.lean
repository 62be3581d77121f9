/-!
# Audio

Sounds are played by an audio output. A sound that cannot be played never stops the game.
-/

set_option autoImplicit false

namespace Encounter

/-- Why a sound was not played. -/
inductive AudioError where
  /-- There is no audio output. -/
  | noOutput
  /-- There is no such file. -/
  | notFound (file : String)
  /-- The output failed. -/
  | playback (reason : String)
  deriving DecidableEq, Repr

/-- The words for an audio error. -/
def AudioError.message : AudioError → String
  | noOutput => "No audio backend is attached"
  | notFound file => "Sound file not found: " ++ file
  | playback reason => "Playback failed: " ++ reason

end Encounter
