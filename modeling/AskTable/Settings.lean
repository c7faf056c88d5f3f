import AskTable.Number.Reading
import AskTable.Text.Case

/-!
Settings, read from named variables. A variable that is missing or cannot be read has a default.
-/
namespace AskTable

abbrev Environment := List (Text × Text)

structure Settings where
  /-- The key for the language model; without it there is none. -/
  apiKey : Option Text
  model : Text
  fallbackModel : Text
  /-- How many seconds to wait for the model. -/
  timeout : Int
  /-- How many records the model is shown. -/
  maxPromptRecords : Int
  logLevel : Text
  deriving DecidableEq

namespace Settings

def given? (env : Environment) (name : Text) : Option Text :=
  List.lookup name env

/-- An integer variable. One that is blank or no integer has the default. -/
def intOf (env : Environment) (name : Text) (default : Int) : Int :=
  ((given? env name).bind fun t => intOfText? t.strip).getD default

def filled? (env : Environment) (name : Text) : Option Text :=
  (given? env name).filter fun t => !t.isEmpty

def ofEnvironment (env : Environment) : Settings where
  apiKey := filled? env "GROQ_API_KEY"
  model := (given? env "GROQ_MODEL").getD "llama-3.3-70b-versatile"
  fallbackModel := (given? env "GROQ_FALLBACK_MODEL").getD "llama-3.1-8b-instant"
  timeout := intOf env "LLM_TIMEOUT_SECONDS" 30
  maxPromptRecords := intOf env "MAX_PROMPT_RECORDS" 50
  logLevel := ((filled? env "LOG_LEVEL").getD "INFO").strip.upper

end Settings

structure ModelNames where
  model : Text
  fallbackModel : Text
  deriving DecidableEq

namespace ModelNames

/-- The given names, and those of the settings where none is given or an empty one. -/
def choose (settings : Settings) (model fallbackModel : Option Text) : ModelNames :=
  ⟨(model.filter fun t => !t.isEmpty).getD settings.model,
    (fallbackModel.filter fun t => !t.isEmpty).getD settings.fallbackModel⟩

/-- The names to be used if there is a key. -/
def configured? (settings : Settings) : Option ModelNames :=
  settings.apiKey.map fun _ => choose settings none none

end ModelNames
end AskTable
