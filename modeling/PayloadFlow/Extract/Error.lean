import PayloadFlow.Script.Language

/-!
# Failed extractions

Why a file gives no contracts.  A tree of directories refuses a file for one of three
reasons; others, such as a lack of permission, are given as texts.  A parse takes no time
and all dialects are at hand, so that no extraction ends with `timeout` or `language`: these
are causes that only a report comes across.
-/

namespace PayloadFlow

inductive AccessError where
  | notFound
  | notADirectory
  | isADirectory
  deriving DecidableEq, Repr

namespace AccessError

def message : AccessError -> String
  | .notFound => "No such file or directory (os error 2)"
  | .notADirectory => "Not a directory (os error 20)"
  | .isADirectory => "Is a directory (os error 21)"

end AccessError

/-- Why a file gives no contracts; each cause names the file. -/
inductive ExtractionError where
  | unreadable (path reason : String)
  | tooLarge (path : String) (size limit : Nat)
  | notUtf8 (path : String)
  | malformed (path : String) (line : Nat)
  | timeout (path : String)
  | unsupportedLanguage (path : String)
  | language (reason : String)
  deriving DecidableEq, Repr

namespace ExtractionError

def message : ExtractionError -> String
  | .unreadable path reason => "failed to read " ++ path ++ ": " ++ reason
  | .tooLarge path size limit =>
      path ++ " is " ++ toString size ++ " bytes, over the " ++ toString limit ++ " byte limit"
  | .notUtf8 path => path ++ " is not valid UTF-8"
  | .malformed path line => path ++ " has a syntax error near line " ++ toString line
  | .timeout path => "parsing " ++ path ++ " exceeded the time limit"
  | .unsupportedLanguage path => "unsupported source language for " ++ path
  | .language reason => "language error: " ++ reason

def line : ExtractionError -> Nat
  | .malformed _ line => line
  | _ => 1

end ExtractionError

namespace Script

def parseSource (path source : String) : Except ExtractionError Node :=
  match dialectOf? path with
  | none => .error (.unsupportedLanguage path)
  | some dialect =>
      match parse dialect source with
      | .ok tree => .ok tree
      | .error line => .error (.malformed path line)

end Script

end PayloadFlow
