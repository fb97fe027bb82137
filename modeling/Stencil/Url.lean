/-
# URLs

A URL is cut into its scheme, its authority, its path and its query; nothing
is resolved or normalised but the letter case of scheme and host.

Key definitions: `Url`, `Url.split`, `Url.host`.
-/
import Stencil.Text.LetterCase
import Stencil.Text.Quoted
import Stencil.Url.Query

namespace Stencil

/-- The parts of a URL. -/
structure Url where
  scheme : String
  /-- What stands between two slashes and the path: user, host and port. -/
  authority : List Char
  path : String
  query : List (String × String)

namespace Url

/-- Why a text is no URL. -/
inductive Fault where
  /-- The brackets of the authority do not enclose its host. -/
  | misplacedBrackets
  /-- The host in brackets is marked as of a later version but has not its form. -/
  | laterVersion
  /-- The host in brackets is an address of four bytes. -/
  | fourBytes
  /-- The host in brackets is no address. -/
  | notAnAddress (host : String)
  /-- The authority holds characters that are equivalent to delimiters. -/
  | disguisedDelimiter (authority : String)

def Fault.message : Fault → String
  | misplacedBrackets => "Invalid IPv6 URL"
  | laterVersion => "IPvFuture address is invalid"
  | fourBytes => "An IPv4 address cannot be in brackets"
  | notAnAddress host => Text.quoted host ++ " does not appear to be an IPv4 or IPv6 address"
  | disguisedDelimiter authority =>
    s!"netloc '{authority}' contains invalid characters under NFKC normalization"

/-- Characters whose compatibility form holds a delimiter of URLs. -/
def disguised : List Nat :=
  [0x2047, 0x2048, 0x2049, 0x2100, 0x2101, 0x2105, 0x2106, 0x2A74, 0xFE13, 0xFE16, 0xFE55, 0xFE56,
    0xFE5F, 0xFE6B, 0xFF03, 0xFF0F, 0xFF1A, 0xFF1F, 0xFF20]

/-- Letters, digits and the signs that may stand in a scheme. -/
def isSchemeChar (c : Char) : Bool := c.isAlphanum || c == '+' || c == '-' || c == '.'

/-- The scheme in front of the first colon, and what follows; a scheme starts with a letter. -/
def splitScheme (cs : List Char) : String × List Char :=
  let word := cs.takeWhile (· != ':')
  match cs.dropWhile (· != ':') with
  | [] => ("", cs)
  | _ :: rest =>
    if (word.head?.map Char.isAlpha).getD false && word.all isSchemeChar then
      (String.ofList (word.map Char.toLower), rest)
    else ("", cs)

def isDelimiter (c : Char) : Bool := c == '/' || c == '?' || c == '#'

/-- The authority after two slashes, and what follows. -/
def splitAuthority : List Char → List Char × List Char
  | '/' :: '/' :: r => (r.takeWhile (!isDelimiter ·), r.dropWhile (!isDelimiter ·))
  | r => ([], r)

/-- What follows the last occurrence of a character, or everything. -/
def afterLast (c : Char) (cs : List Char) : List Char := (cs.reverse.takeWhile (· != c)).reverse

/-- What follows the user in an authority. -/
def hostAndPort (authority : List Char) : List Char := afterLast '@' authority

/-- What follows the first opening bracket. -/
def afterBracket (cs : List Char) : List Char := (cs.dropWhile (· != '[')).drop 1

/-- The host before a port, as written, without its brackets. -/
def hostPart (cs : List Char) : List Char :=
  if cs.contains '[' then (afterBracket cs).takeWhile (· != ']') else cs.takeWhile (· != ':')

/-- Whether brackets enclose the host before a port: nothing stands before them, and nothing but the
port after them. -/
def enclosesHost (cs : List Char) : Bool :=
  !cs.contains '[' ||
    (cs.head? == some '[' &&
      match ((afterBracket cs).dropWhile (· != ']')).drop 1 with
      | [] => true
      | c :: _ => c == ':')

/-- `v`, hexadecimal digits, a point and at least one character more. -/
def isLaterVersion (host : List Char) : Bool :=
  let rest := host.drop 1
  let digits := rest.takeWhile isHexDigit
  match rest.dropWhile isHexDigit with
  | '.' :: _ :: _ => !digits.isEmpty
  | _ => false

/-- What is wrong with a host in brackets. -/
def bracketFault? (host : List Char) : Option Fault :=
  if host.head? == some 'v' then
    if isLaterVersion host then none else some .laterVersion
  else if isFourBytes host then some .fourBytes
  else if isEightGroups host then none
  else some (.notAnAddress (String.ofList host))

/-- What is wrong with an authority that holds brackets. Where they belong to the user, the host is
still taken for an address. -/
def authorityFault? (authority : List Char) : Option Fault :=
  match authority.contains '[', authority.contains ']' with
  | false, false => none
  | true, true =>
    let cs := hostAndPort authority
    if enclosesHost cs then bracketFault? (hostPart cs) else some .misplacedBrackets
  | _, _ => some .misplacedBrackets

/-- Takes a URL apart. Control characters and spaces in front are dropped, tabs and line ends
everywhere. -/
def split (s : String) : Except Fault Url :=
  let cs := (s.toList.dropWhile (·.toNat ≤ 0x20)).filter fun c =>
    c != '\t' && c != '\n' && c != '\r'
  let (scheme, rest) := splitScheme cs
  let (authority, rest) := splitAuthority rest
  match authorityFault? authority with
  | some fault => .error fault
  | none =>
    if authority.any fun c => disguised.contains c.toNat then
      .error (.disguisedDelimiter (String.ofList authority))
    else
      let rest := rest.takeWhile (· != '#')
      let path := rest.takeWhile (· != '?')
      .ok ⟨scheme, authority, String.ofList path, readQuery ((rest.dropWhile (· != '?')).drop 1)⟩

/-- The host of an authority: without user, port and brackets, in lower case up to a zone. -/
def hostOf (authority : List Char) : String :=
  let name := hostPart (hostAndPort authority)
  Text.lower (String.ofList (name.takeWhile (· != '%'))) ++
    String.ofList (name.dropWhile (· != '%'))

/-- The host of a URL, empty if it has none. -/
def host (u : Url) : String := hostOf u.authority

end Url
end Stencil
