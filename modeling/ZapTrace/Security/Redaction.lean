import Mathlib.Logic.Relation
import ZapTrace.Library.PyValue
import ZapTrace.Library.Regex

/-!
# The redaction of secrets

The patterns of secrets are applied one after another, each to what the earlier ones left, and every match is
replaced by a mark. A pattern does not distinguish upper and lower case, except that of a private key; then four
letters outside ASCII count as well. Which characters are letters or digits is a parameter.

Two texts differ only in secrets when one comes from the other by changing, once or several times, the text that
one of the patterns matches.
-/

namespace ZapTrace.Redaction

/-! ## Characters -/

/-- The letters outside ASCII that are a letter of ASCII in the other case. -/
def foldings : List (Char × Char) :=
  [(Char.ofNat 0x130, 'i'), (Char.ofNat 0x131, 'i'), (Char.ofNat 0x17f, 's'), (Char.ofNat 0x212a, 'k')]

/-- A character of a pattern without regard to the case. -/
def sameLetter (c d : Char) : Bool := c.toLower = d.toLower || foldings.contains (d, c.toLower)

/-- The same with the flag `a`, for ASCII. -/
def sameAsciiLetter (c d : Char) : Bool := c.toLower = d.toLower

/-- `[A-Z0-9]` without regard to the case, and the characters of `others`. -/
def letterOrDigit (others : List Char) (c : Char) : Bool :=
  c.isAlphanum || foldings.any (fun folding => folding.1 = c) || others.contains c

/-- `\w` with the flag `a` -/
def isAsciiWord (c : Char) : Bool := c.isAlphanum || c = '_'

section

variable (isAlnum : Char → Bool)

/-- `\w` -/
def isWord (c : Char) : Bool := isAlnum c || c = '_'

/-! ## Patterns -/

/-- A text of a pattern without regard to the case. -/
def literal (s : String) : Regex := .text sameLetter s.toList

/-- `[A-Z0-9\-._~+/]` -/
def isTokenChar : Char → Bool := letterOrDigit ['-', '.', '_', '~', '+', '/']

/-- A name, a colon or an equals sign, an opening quote, and a value of at least eight characters. -/
def assignment (names : List String) : Regex :=
  .seq (.oneOf sameLetter names) (.seq (.atLeast 0 pyIsSpace) (.seq (.char [':', '='].contains)
    (.seq (.atLeast 0 pyIsSpace) (.seq (Regex.optional (.char ['\'', '"'].contains)) (.atLeast 8 isTokenChar)))))

def awsKey : Regex := .seq (literal "AKIA") (.exactly 16 (letterOrDigit []))

def awsSecret : Regex := .atLeast 40 fun c => isWord isAlnum c || ['+', '/', '='].contains c

def githubToken : Regex :=
  .seq (.oneOf sameAsciiLetter ["ghp", "gho", "ghu", "ghs", "ghr"]) (.seq (.char ('_' == ·)) (.atLeast 36 isAsciiWord))

def bearerToken : Regex := .seq (literal "bearer") (.seq (.atLeast 1 pyIsSpace) (.atLeast 20 isTokenChar))

def apiKeyHeader : Regex := assignment ["x-api-key", "api_key", "apikey"]

def jwtToken : Regex :=
  let part : Regex := .atLeast 1 (letterOrDigit ['-', '_'])
  .seq (literal "eyJ") (.seq part (.seq (literal ".eyJ") (.seq part (.seq (literal ".") part))))

def privateKey : Regex :=
  let exactly (s : String) : Regex := .text (· == ·) s.toList
  let blanks : Regex := .atLeast 1 pyIsSpace
  .seq (exactly "-----BEGIN") (.seq blanks (.seq (Regex.optional (.seq (exactly "RSA") blanks))
    (.seq (exactly "PRIVATE") (.seq blanks (exactly "KEY-----")))))

def genericToken : Regex := assignment ["token", "secret", "password", "passwd"]

def secretPatterns : List Regex :=
  [awsKey, awsSecret isAlnum, githubToken, bearerToken, apiKeyHeader, jwtToken, privateKey, genericToken]

/-! ## Redaction -/

def mark : List Char := "[REDACTED]".toList

/-- The matches of some patterns replaced, one pattern after another. -/
def redactAll (patterns : List Regex) (cs : List Char) : List Char :=
  patterns.foldl (fun result pattern => pattern.sub mark result) cs

def redactSecrets (text : String) : String := .ofList (redactAll (secretPatterns isAlnum) text.toList)

/-- Two texts that differ only in what one of the patterns matches. -/
def MatchChanged (s t : String) : Prop :=
  ∃ pattern ∈ secretPatterns isAlnum, pattern.scan s.toList = pattern.scan t.toList

/-- Two texts that differ only in what the patterns match. -/
def SameButMatches : String → String → Prop := Relation.ReflTransGen (MatchChanged isAlnum)

end

end ZapTrace.Redaction
