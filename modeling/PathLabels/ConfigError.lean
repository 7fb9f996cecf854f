import PathLabels.RuleTable.Schema

/-!
# Faults of the configuration

What can go wrong before a run does anything: the rule table cannot be read or is not well formed,
or a setting of the run is missing.
-/

namespace PathLabels

/-- A fault of the surrounding system, by the text that it shows. -/
structure IoError where
  message : String
  deriving Repr, DecidableEq, Inhabited

namespace IoError

def notFound : IoError := ⟨"No such file or directory (os error 2)"⟩

def notADirectory : IoError := ⟨"Not a directory (os error 20)"⟩

def isADirectory : IoError := ⟨"Is a directory (os error 21)"⟩

def nameTooLong : IoError := ⟨"File name too long (os error 36)"⟩

/-- A text with a NUL in it is neither a file name nor an argument. -/
def containsNul : IoError := ⟨"nul byte found in provided data"⟩

/-- A file or stream that should be text is not UTF-8. -/
def notText : IoError := ⟨"stream did not contain valid UTF-8"⟩

end IoError

/-- Why a text is not a rule table. -/
inductive TableFault where
  /-- The text is not a document. -/
  | syntaxFault
  /-- The document does not have the form of a rule table. -/
  | schema (fault : SchemaFault)
  deriving Repr, DecidableEq

/-- The text shown for a fault. -/
def TableFault.message : TableFault → String
  | .syntaxFault => "TOML parse error"
  | .schema fault => "TOML parse error: " ++ fault.message

/-- A setting without which a run cannot start. -/
inductive RequiredSetting where
  | pullRequest
  | repository
  | token
  deriving Repr, DecidableEq

/-- The name of a required setting. -/
def RequiredSetting.name : RequiredSetting → String
  | .pullRequest => "PR number"
  | .repository => "repository (OWNER/NAME)"
  | .token => "API token"

/-- A fault of the configuration. -/
inductive ConfigError where
  | read (path : String) (cause : IoError)
  | parse (path : String) (fault : TableFault)
  /-- The rule with this index, counted from zero, has a blank label. -/
  | emptyLabel (index : Nat)
  | duplicateLabel (label : String)
  /-- The rule with this label owns nothing. -/
  | noPatterns (label : String)
  | invalidPattern (pattern : String) (reason : String)
  | missing (setting : RequiredSetting)
  | invalidRepository (text : String)
  deriving Repr, DecidableEq

namespace ConfigError

/-- The text shown for a fault. -/
def message : ConfigError → String
  | read path cause => s!"failed to read rule table {path}: {cause.message}"
  | parse path fault => s!"failed to parse rule table {path}: {fault.message}"
  | emptyLabel index => s!"rule #{index} has an empty label"
  | duplicateLabel label => s!"label '{label}' is defined more than once"
  | noPatterns label => s!"label '{label}' has no path patterns"
  | invalidPattern pattern reason => s!"invalid path pattern '{pattern}': {reason}"
  | missing setting => s!"missing required setting: {setting.name}"
  | invalidRepository text => s!"repository must be in OWNER/NAME form, got '{text}'"

/-- The text of the fault behind a fault, if there is one. -/
def cause? : ConfigError → Option String
  | read _ cause => some cause.message
  | parse _ fault => some fault.message
  | _ => none

end ConfigError

end PathLabels
