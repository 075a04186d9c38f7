/-
Azsl.Uri.Resolve — reading resource identifiers and resolving references.

`Uri.parse` reads an absolute identifier, `Uri.join` a reference against a base. Both bring
what they read into normal form: dot segments are resolved while the path is built, and the
identifiers of local files keep a drive letter at the front of their path.

The path under construction is a text that starts with a slash. A segment is added to it as it
is read; `..` takes the last one away again, but never a drive letter.

Tabs and line ends do not count. They are passed over while reading and not taken out before,
because a drive letter that one of them cuts off is a segment of its own.
-/
import Azsl.Uri.Host

namespace Azsl

/-- The rules a scheme follows. -/
inductive SchemeType where
  | file
  | special
  | other
deriving DecidableEq, Repr

namespace SchemeType

/-- The rules of a scheme in lower case. -/
def of (scheme : String) : SchemeType :=
  if scheme = "file" then .file
  else if ["http", "https", "ws", "wss", "ftp"].contains scheme then .special
  else .other

/-- Schemes with rules take a backslash for a slash and always have a path. -/
def isSpecial : SchemeType → Bool
  | file | special => true
  | other => false

end SchemeType

/-- The port that a scheme stands for. -/
def defaultPort? (scheme : String) : Option Nat :=
  [("http", 80), ("ws", 80), ("https", 443), ("wss", 443), ("ftp", 21)].lookup scheme

namespace Uri

/-! ## Characters that do not count -/

/-- Tabs and line ends. -/
def isIgnored (c : Char) : Bool := c == '\t' || c == '\n' || c == '\r'

/-- The characters that count. -/
def counted (chars : List Char) : List Char := chars.filter (!isIgnored ·)

/-- The first character that counts and all behind it. -/
def next? (chars : List Char) : Option (Char × List Char) :=
  match chars.dropWhile isIgnored with
  | [] => none
  | c :: rest => some (c, rest)

/-- What is behind two slashes at the front. -/
def behindSlashes? (chars : List Char) : Option (List Char) :=
  match next? chars with
  | some ('/', rest) =>
    match next? rest with
    | some ('/', behind) => some behind
    | _ => none
  | _ => none

/-- A slash in either direction. -/
def isSlash (c : Char) : Bool := c == '/' || c == '\\'

/-- The number of slashes at the front, in either direction, and what is behind them. -/
def passSlashes (chars : List Char) : Nat × List Char :=
  let slashes := chars.takeWhile fun c => isSlash c || isIgnored c
  ((counted slashes).length, chars.drop slashes.length)

/-! ## Drive letters -/

/-- A letter of the Latin alphabet. -/
def isLetter (c : Char) : Bool := ('a' ≤ c && c ≤ 'z') || ('A' ≤ c && c ≤ 'Z')

/-- Whether a text starts with a drive letter that ends there or before a delimiter. -/
def startsWithDrive : List Char → Bool
  | a :: b :: rest =>
    isLetter a && (b == ':' || b == '|') &&
      (match rest with
        | [] => true
        | c :: _ => ['/', '\\', '?', '#'].contains c)
  | _ => false

/-- A drive letter and nothing else. -/
def isDrive (chars : List Char) : Bool := chars.length == 2 && startsWithDrive chars

/-- A drive letter in normal form. -/
def isNormalDrive (chars : List Char) : Bool := isDrive chars && chars.getLast? == some ':'

/-- A drive letter in normal form that something ignored cuts off from the rest of a segment,
and that rest. -/
def cutDrive? (raw : List Char) : Option (List Char × List Char) :=
  match next? raw with
  | some (letter, behind) =>
    match next? behind with
    | some (':', c :: rest) =>
      if isLetter letter ∧ isIgnored c ∧ !(counted rest).isEmpty then
        some ([letter, ':'], counted rest)
      else none
    | _ => none
  | none => none

/-! ## Paths -/

/-- The path up to and with its last slash. -/
def parentPath (path : List Char) : List Char :=
  (path.reverse.dropWhile (· ≠ '/')).reverse

/-- What stands behind the last slash. -/
def lastSegment (path : List Char) : List Char :=
  (path.reverse.takeWhile (· ≠ '/')).reverse

/-- Remove the last segment, unless it is the drive letter of a file. -/
def popSegment (kind : SchemeType) (path : List Char) : List Char :=
  if kind = .file ∧ isNormalDrive (lastSegment path) then path else parentPath path

/-- Whether the slash at the end closes a segment that may be removed: not the root, and not a
drive letter. -/
def closesSegment (path : List Char) : Bool :=
  let before := path.dropLast
  before.contains '/' && !startsWithDrive (lastSegment before ++ ['/'])

/-- Spellings of the segment that stands for the directory above. -/
def isDoubleDot (segment : List Char) : Bool :=
  ["..", "%2e%2e", ".%2e", "%2e."].contains (String.ofList (segment.map Char.toLower))

/-- Spellings of the segment that stands for the directory itself. -/
def isSingleDot (segment : List Char) : Bool :=
  [".", "%2e"].contains (String.ofList (segment.map Char.toLower))

/-- A path that ends with a slash. -/
def withSlash (path : List Char) : List Char :=
  if path.getLast? = some '/' then path else path ++ ['/']

/-- A path under construction, and whether the identifier has a host. -/
structure PathState where
  path : List Char
  hasHost : Bool

/-- Add a segment that is no drive letter in need of care; `slash` says whether a slash
follows it. -/
def addPlainSegment (kind : SchemeType) (state : PathState) (segment : List Char) (slash : Bool) :
    PathState :=
  let path := state.path
  let ending := if slash then ['/'] else []
  if isDoubleDot segment then
    let shorter := if path.getLast? = some '/' ∧ closesSegment path then path.dropLast else path
    let popped := popSegment kind shorter
    { state with path := if slash then withSlash popped else popped }
  else if isSingleDot segment then { state with path := withSlash path }
  else if kind = .file ∧ path.length = 1 ∧ isDrive segment then
    ⟨path ++ segment.take 1 ++ [':'] ++ ending, false⟩
  else { state with path := path ++ segment ++ ending }

/-- Add a segment to a path. The first segment of a file behind a drive letter without a slash
gets one, and so does the rest of a segment that a drive letter is cut off from. -/
def addSegment (kind : SchemeType) (state : PathState) (raw : List Char) (slash : Bool) :
    PathState :=
  let text := counted raw
  let encode := Percent.encode Percent.inPath
  if kind = .file ∧ !text.isEmpty ∧ isNormalDrive (state.path.drop 1) then
    addPlainSegment kind { state with path := state.path ++ ['/'] } (encode text) slash
  else
    match (if kind = .file ∧ state.path = ['/'] then cutDrive? raw else none) with
    | some (drive, rest) =>
      { state with
        path := state.path ++ drive ++ '/' :: encode rest ++ if slash then ['/'] else [] }
    | none => addPlainSegment kind state (encode text) slash

/-- Add segments in a row; a slash follows all but the last. -/
def addSegments (kind : SchemeType) (state : PathState) : List (List Char) → PathState
  | [] => state
  | [last] => addSegment kind state last false
  | segment :: rest => addSegments kind (addSegment kind state segment true) rest

/-- What the path of a reference consists of. -/
def pathPart (chars : List Char) : List Char :=
  chars.takeWhile fun c => c != '?' && c != '#'

/-- The segments of a path. -/
def segments (kind : SchemeType) (chars : List Char) : List (List Char) :=
  let forward := if kind.isSpecial then chars.map fun c => if c = '\\' then '/' else c else chars
  Domain.splitAt '/' forward

/-- Continue a path by the one at the front of a reference. The path of a file has a single
slash at its start. -/
def readPath (kind : SchemeType) (state : PathState) (chars : List Char) : PathState :=
  let read := addSegments kind state (segments kind (pathPart chars))
  if kind = .file then { read with path := '/' :: read.path.dropWhile (· == '/') } else read

/-- The path behind an authority. -/
def readPathStart (kind : SchemeType) (hasHost : Bool) (chars : List Char) : PathState :=
  match next? chars with
  | none => if kind.isSpecial then readPath kind ⟨['/'], hasHost⟩ [] else ⟨[], hasHost⟩
  | some (c, rest) =>
    if kind.isSpecial then readPath kind ⟨['/'], hasHost⟩ (if isSlash c then rest else chars)
    else if c = '?' ∨ c = '#' then ⟨[], hasHost⟩
    else readPath kind ⟨if c = '/' then [] else ['/'], hasHost⟩ chars

/-! ## Queries and fragments -/

/-- The query and the fragment behind the path of a reference. -/
def readTail (kind : SchemeType) (chars : List Char) : Option String × Option String :=
  let rest := chars.dropWhile fun c => c != '?' && c != '#'
  let set := if kind.isSpecial then Percent.inSpecialQuery else Percent.inQuery
  let query := match rest with
    | '?' :: behind =>
      some (String.ofList (Percent.encode set (counted (behind.takeWhile (· ≠ '#')))))
    | _ => none
  let fragment := match rest.dropWhile (· ≠ '#') with
    | _ :: behind => some (String.ofList (Percent.encode Percent.inFragment (counted behind)))
    | [] => none
  (query, fragment)

/-- An identifier with a path, and the query and fragment of a reference. -/
def build (scheme : String) (authority : Option Authority) (path reference : List Char) : Uri :=
  let (query, fragment) := readTail (.of scheme) reference
  ⟨scheme, authority, String.ofList path, query, fragment⟩

/-! ## Authorities -/

/-- Whether a character ends an authority. -/
def endsAuthority (kind : SchemeType) (c : Char) : Bool :=
  c == '/' || c == '?' || c == '#' || (c == '\\' && kind.isSpecial)

/-- User name and password, normalised, from what stands before the last `@`. -/
def readUserinfo (chars : List Char) : String :=
  let name := chars.takeWhile (· ≠ ':')
  let password := (chars.drop name.length).drop 1
  let text := Percent.encode Percent.inUserinfo name ++
    (if password.isEmpty then [] else ':' :: Percent.encode Percent.inUserinfo password)
  if text.isEmpty then "" else String.ofList (text ++ ['@'])

/-- The host of an authority and what is left. A colon inside brackets belongs to the host. -/
def splitHost (inside : Bool) : List Char → List Char × List Char
  | [] => ([], [])
  | c :: rest =>
    if c = ':' ∧ !inside then ([], c :: rest)
    else
      let stillInside := c = '[' || (inside && c ≠ ']')
      let (host, tail) := splitHost stillInside rest
      (c :: host, tail)

/-- The characters that may follow a port. -/
def endsPort : List Char := ['/', '\\', '?', '#']

/-- The port at the front of a text and what is behind it. It ends before the path, the query
or the fragment. -/
def readPort (scheme : String) (chars : List Char) : Except UriError (Option Nat × List Char) :=
  let text := chars.takeWhile fun c => ('0' ≤ c && c ≤ '9') || isIgnored c
  let rest := chars.drop text.length
  let digits := counted text
  let number := Host.number 10 digits
  if 65535 < number ∨ rest.head?.any (fun c => !(endsPort.contains c)) then .error .invalidPort
  else if digits.isEmpty ∨ some number = defaultPort? scheme then .ok (none, rest)
  else .ok (some number, rest)

/-- The host at the front of a text with the port behind it, if there is a colon, and what is
left. -/
def readHostPort (scheme userinfo : String) (text rest : List Char) :
    Except UriError (Authority × List Char) := do
  let kind := SchemeType.of scheme
  let (name, tail) := splitHost false text
  if (counted name).isEmpty ∧ (kind.isSpecial ∨ !tail.isEmpty ∨ userinfo ≠ "") then
    throw .emptyHost
  let host ← if kind.isSpecial then Host.parse (counted name) else Host.parseOpaque (counted name)
  match tail with
  | [] => return (⟨userinfo, host, none⟩, rest)
  | _ :: behind =>
    let (port, left) ← readPort scheme (behind ++ rest)
    return (⟨userinfo, host, port⟩, left)

/-- An authority without the slashes before it, and what is behind it. There has to be a host
behind an `@` that nothing stands before. -/
def readAuthority (scheme : String) (chars : List Char) :
    Except UriError (Authority × List Char) :=
  let text := chars.takeWhile (!endsAuthority (.of scheme) ·)
  let rest := chars.drop text.length
  if text.contains '@' then
    let behind := (text.reverse.takeWhile (· ≠ '@')).reverse
    let before := counted (text.take (text.length - behind.length - 1))
    if before.isEmpty ∧ (counted behind).isEmpty ∧ !rest.isEmpty then .error .emptyHost
    else readHostPort scheme (readUserinfo before) behind rest
  else readHostPort scheme "" text rest

/-- Everything behind a scheme and two slashes. -/
def readBehindSlashes (scheme : String) (chars : List Char) : Except UriError Uri := do
  let (authority, rest) ← readAuthority scheme chars
  return build scheme (some authority) (readPathStart (.of scheme) true rest).path rest

/-! ## Files -/

/-- The host of a file and what is left; the local machine is none. -/
def readFileHost (chars : List Char) : Except UriError (String × List Char) :=
  let text := chars.takeWhile fun c => !(['/', '\\', '?', '#'].contains c)
  if (counted text).isEmpty then .ok ("", chars)
  else
    match Host.parse (counted text) with
    | .ok host => .ok (if host = "localhost" then "" else host, chars.drop text.length)
    | .error error => .error error

/-- The identifier of a file with a host that may be empty. -/
def fileUri (host : String) (path reference : List Char) : Uri :=
  build "file" (some { Authority.empty with host }) path reference

/-- The host that a reference to a file without one takes from its base. -/
def baseHost (base : Option Uri) : String :=
  ((base.bind (·.authority)).map (·.host)).getD ""

/-- The first segment of the path of a base. -/
def baseDrive (base : Option Uri) : List Char :=
  match base with
  | some uri => (uri.path.toList.drop 1).takeWhile (· ≠ '/')
  | none => []

/-- A reference to a file that starts with a single slash, with what is behind it: it keeps the
drive letter or the host of its base. -/
def readFromRoot (base : Option Uri) (chars behind : List Char) : Uri :=
  let drive := baseDrive base
  if startsWithDrive (counted behind) then
    fileUri "" (readPath .file ⟨[], false⟩ chars).path chars
  else if isNormalDrive drive then
    fileUri "" (readPath .file ⟨'/' :: drive, false⟩ chars).path chars
  else fileUri (baseHost base) (readPath .file ⟨[], false⟩ chars).path chars

/-- A file behind two slashes. A drive letter is not a host. Without a host the path has a slash
before the one that is read. -/
def readFileBehindSlashes (chars : List Char) : Except UriError Uri :=
  if isDrive (counted (chars.takeWhile fun c => !(['/', '\\', '?', '#'].contains c))) then
    .ok (fileUri "" (readPath .file ⟨['/'], false⟩ chars).path chars)
  else
    match readFileHost chars with
    | .error error => .error error
    | .ok (host, behind) =>
      let state :=
        if host.isEmpty then readPath .file ⟨['/'], false⟩ behind
        else readPathStart .file true behind
      .ok (fileUri (if state.hasHost then host else "") state.path behind)

/-- A reference to a file that does not start with a slash. -/
def readFileRelative (base : Option Uri) (chars : List Char) : Uri :=
  match base with
  | none => fileUri "" (readPath .file ⟨['/'], false⟩ chars).path chars
  | some uri =>
    match next? chars with
    | none => { uri with fragment := none }
    | some (c, _) =>
      if c = '?' then
        let (query, fragment) := readTail .file chars
        { uri with query, fragment }
      else if c = '#' then { uri with fragment := (readTail .file chars).2 }
      else if startsWithDrive (counted chars) then
        fileUri "" (readPath .file ⟨['/'], false⟩ chars).path chars
      else
        let above := popSegment .file uri.path.toList
        build "file" uri.authority (readPath .file ⟨above, true⟩ chars).path chars

/-- A reference with the scheme of files, behind the scheme. -/
def readFile (base : Option Uri) (chars : List Char) : Except UriError Uri :=
  match next? chars with
  | some (a, behind) =>
    if isSlash a then
      match next? behind with
      | some (b, rest) =>
        if isSlash b then readFileBehindSlashes rest else .ok (readFromRoot base chars behind)
      | none => .ok (readFromRoot base chars behind)
    else .ok (readFileRelative base chars)
  | none => .ok (readFileRelative base chars)

/-! ## References -/

/-- The scheme at the front of a text, in lower case, and what follows its colon. -/
def readScheme (chars : List Char) : Option (String × List Char) :=
  let text := chars.takeWhile fun c =>
    isLetter c || ('0' ≤ c && c ≤ '9') || ['+', '-', '.'].contains c || isIgnored c
  let name := counted text
  match chars.drop text.length with
  | ':' :: rest =>
    if name.head?.any isLetter then some (String.ofList (name.map Char.toLower), rest) else none
  | _ => none

/-- A reference without a scheme against a base that is neither opaque nor a file. -/
def readRelative (base : Uri) (chars : List Char) : Except UriError Uri :=
  let kind := SchemeType.of base.scheme
  match next? chars with
  | none => .ok { base with fragment := none }
  | some (c, rest) =>
    if c = '?' then
      let (query, fragment) := readTail kind chars
      .ok { base with query, fragment }
    else if c = '#' then .ok { base with fragment := (readTail kind chars).2 }
    else if isSlash c then
      let (slashes, behind) := passSlashes chars
      if 2 ≤ slashes then readBehindSlashes base.scheme ((behindSlashes? chars).getD behind)
      else .ok (build base.scheme base.authority (readPath kind ⟨['/'], true⟩ rest).path rest)
    else
      let above := popSegment kind base.path.toList
      let start := if above.isEmpty then ['/'] else above
      .ok (build base.scheme base.authority (readPath kind ⟨start, true⟩ chars).path chars)

/-- What follows a scheme without rules of its own. -/
def readOther (scheme : String) (chars : List Char) : Except UriError Uri :=
  match behindSlashes? chars with
  | some behind => readBehindSlashes scheme behind
  | none =>
    match next? chars with
    | some ('/', rest) =>
      .ok (build scheme none (readPath .other ⟨['/'], false⟩ rest).path rest)
    | _ =>
      .ok (build scheme none (Percent.encode Percent.isControl (counted (pathPart chars))) chars)

/-- What follows a scheme. -/
def readWithScheme (base : Option Uri) (scheme : String) (chars : List Char) :
    Except UriError Uri :=
  match SchemeType.of scheme with
  | .file => readFile (base.filter (·.scheme == "file")) chars
  | .special =>
    let (slashes, behind) := passSlashes chars
    match base with
    | some uri =>
      if slashes < 2 ∧ uri.scheme = scheme then readRelative uri chars
      else readBehindSlashes scheme behind
    | none => readBehindSlashes scheme behind
  | .other => readOther scheme chars

/-- A text without control characters and blanks around it. -/
def trim (text : String) : List Char :=
  let isOuter (c : Char) := decide (c.toNat ≤ 0x20)
  ((text.toList.dropWhile isOuter).reverse.dropWhile isOuter).reverse

/-- Read a reference, against a base if there is one. -/
def resolve (base : Option Uri) (text : String) : Except UriError Uri :=
  let chars := trim text
  match readScheme chars with
  | some (scheme, rest) => readWithScheme base scheme rest
  | none =>
    match base with
    | none => .error .relativeWithoutBase
    | some uri =>
      if chars.head? = some '#' then
        .ok { uri with fragment := (readTail (.of uri.scheme) chars).2 }
      else if uri.isOpaque then .error .relativeWithOpaqueBase
      else if uri.scheme = "file" then readFile (some uri) chars
      else readRelative uri chars

/-- Read an absolute identifier. -/
def parse (text : String) : Except UriError Uri :=
  resolve none text

/-- Resolve a reference against an identifier. -/
def join (base : Uri) (reference : String) : Except UriError Uri :=
  resolve (some base) reference

end Uri

end Azsl
