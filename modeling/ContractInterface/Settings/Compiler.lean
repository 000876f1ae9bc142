import ContractInterface.Table
import ContractInterface.Text.Integer

/-!
# Settings of the compiler

A few settings have defaults that environment variables override.  A number that cannot be read
leaves the default.
-/

namespace ContractInterface

/-- The settings of the compiler. -/
structure CompilerSettings where
  /-- The constant with which contracts scale their sizes. -/
  multiplier : Int
  /-- The file name of the shared prelude. -/
  preludeHeader : String
  /-- The ending of the names of documents. -/
  outputSuffix : String
  /-- Whether documents record the time of their creation. -/
  includeGeneratedAt : Bool
  deriving DecidableEq, Repr

namespace CompilerSettings

/-- The settings without any override. -/
def default : CompilerSettings := ⟨1, "qpi.h", ".qbi", true⟩

/-! ### Overrides -/

/-- Whether a text is one of some words, the case of ASCII letters aside. -/
def isOneOf (words : List String) (s : String) : Bool :=
  words.contains (String.ofList (s.toList.map Char.toLower))

/-- The variables that override settings. -/
def variableNames : List String :=
  ["QBI_X_MULTIPLIER", "QBI_QPI_HEADER", "QBI_OUTPUT_SUFFIX", "QBI_INCLUDE_GENERATED_AT"]

/-- The settings in an environment. -/
def ofEnvironment (environment : Table String) : CompilerSettings :=
  { multiplier :=
      ((environment.get? "QBI_X_MULTIPLIER").bind fun value => Integer.read? value.toList).getD
        default.multiplier
    preludeHeader := (environment.get? "QBI_QPI_HEADER").getD default.preludeHeader
    outputSuffix := (environment.get? "QBI_OUTPUT_SUFFIX").getD default.outputSuffix
    includeGeneratedAt :=
      ((environment.get? "QBI_INCLUDE_GENERATED_AT").map
        (isOneOf ["true", "1", "yes", "on"])).getD default.includeGeneratedAt }

/-- The constants that every compilation starts with. -/
def seed (s : CompilerSettings) : Table Int :=
  [("X_MULTIPLIER", s.multiplier)]

end CompilerSettings

end ContractInterface
