import CycleSchedule.Yaml.Draft
import CycleSchedule.Yaml.Token.Lexer

/-! Reading documents into values. -/

namespace CycleSchedule.Yaml

/-- How many levels of a node inside itself are told apart; no reader of values looks deeper. -/
def unfoldedLevels : Nat := 5

/-- How many drafts the nodes of a document make at most, every alias made where it stands. -/
def draftLimit (text : String) : Nat := text.length * text.length + 2

/-- The value of the only document of a text. -/
def read (text : String) : Except Fault Value := do
  let node ← document (tokens text.toList)
  let reading := readRounds node unfoldedLevels []
  Draft.inspect (draftLimit text) [] [reading.draft]
  return reading.draft.value

end CycleSchedule.Yaml
