import PenRover.Text.Quoted
import PenRover.Text.Utf8
import PenRover.Value.Reader

/-!
# Routes

The addresses of the dashboard.  Every service is offered at the top and once more below `/api`.  An
address with a slash too many or too few at its end is redirected to the one that is known.
-/

namespace PenRover

/-- What can be asked of the dashboard. -/
inductive Service where
  /-- The top address, which leads to the page. -/
  | welcome
  | page
  | status
  | upload
  | start
  | stop
  | preview
  | readSettings
  | changeSettings
  deriving DecidableEq, Repr

/-- A service with its method and its path. -/
structure Route where
  method : String
  path : String
  service : Service

namespace Route

/-- The services that are offered below a base path. -/
def below (base : String) : List Route :=
  [⟨"GET", base ++ "/", .status⟩, ⟨"GET", base ++ "/status", .status⟩,
    ⟨"POST", base ++ "/file", .upload⟩, ⟨"POST", base ++ "/start", .start⟩,
    ⟨"POST", base ++ "/stop", .stop⟩, ⟨"GET", base ++ "/preview", .preview⟩,
    ⟨"GET", base ++ "/config", .readSettings⟩, ⟨"POST", base ++ "/config", .changeSettings⟩]

/-- All routes; of two with one method and path the first counts. -/
def all : List Route :=
  [⟨"GET", "/", .welcome⟩, ⟨"GET", "/ui", .page⟩] ++ below "" ++ below "/api"

/-- The path is that of a route. -/
def isKnown (path : Text) : Bool := all.any fun r => path == Text.ofString r.path

end Route

/-- Where an address leads. -/
inductive Destination where
  | service (service : Service)
  /-- The path is known, but not with this method. -/
  | wrongMethod
  /-- The path is known with a slash more or less at its end. -/
  | elsewhere (path : Text)
  | unknown
  deriving DecidableEq

namespace Destination

/-- The path without the slashes at its end, or with one if there is none. -/
def toggleSlash (path : Text) : Text :=
  let slash := CodePoint.ofChar '/'
  if path.getLast? = some slash then (path.reverse.dropWhile (· == slash)).reverse
  else path ++ [slash]

/-- Where a method and a path lead. -/
def ofPath (method path : Text) : Destination :=
  let found := Route.all.find? fun r =>
    method == Text.ofString r.method && path == Text.ofString r.path
  match found with
  | some r => .service r.service
  | none =>
    if Route.isKnown path then .wrongMethod
    else if Route.isKnown (toggleSlash path) then .elsewhere (toggleSlash path)
    else .unknown

end Destination

/-! ## Addresses -/

namespace Address

/-- The path of an address, which ends at a question mark, and the query after that mark.  What
follows a number sign belongs to neither. -/
def split (address : Text) : Text × Text :=
  let (path, query) := (address.takeWhile (· != CodePoint.ofChar '#')).span
    (· != CodePoint.ofChar '?')
  (path, query.drop 1)

/-- The parts of a path, given those before them from the last to the first.  A single dot stands
for no part, and a double dot takes back the part before it, but not the top. -/
def resolveParts (before : List Text) : List Text → List Text
  | [] => before.reverse
  | part :: rest =>
    if part = Text.ofString "." then resolveParts before rest
    else if part = Text.ofString ".." then
      resolveParts (if before = [[]] then before else before.drop 1) rest
    else resolveParts (part :: before) rest

/-- The path from the top, without dots for parts. -/
def resolve (path : Text) : Text :=
  let slash := CodePoint.ofChar '/'
  let rooted := if path.head? = some slash then path else slash :: path
  match Text.join slash (resolveParts [] (rooted.pieces slash)) with
  | [] => [slash]
  | path => path

/-- The text begins with the two hexadecimal digits of an escape. -/
def startsWithByte : Text → Bool
  | a :: b :: _ => (Value.hexDigit? a).isSome && (Value.hexDigit? b).isSome
  | _ => false

/-- The bytes of a path, with each escape of a percent sign and two hexadecimal digits resolved. -/
def unescape : Text → Bytes
  | [] => []
  | c :: a :: b :: rest =>
    match c == CodePoint.ofChar '%', Value.hexDigit? a, Value.hexDigit? b with
    | true, some x, some y => UInt8.ofNat (16 * x + y) :: unescape rest
    | _, _, _ => Utf8.encodePoint c ++ unescape (a :: b :: rest)
  | c :: rest => Utf8.encodePoint c ++ unescape rest

/-- The path that an address names; none when its escapes spell no text. -/
def path? (address : Text) : Option Text :=
  (Utf8.decode false (unescape (resolve (split address).1))).toOption

/-- The code point stands for itself in a location. -/
def isPlain (c : CodePoint) : Bool :=
  match c.toChar? with
  | some c => c.isAlphanum || "-._~:/#?=@[]!$&'()*+,".toList.contains c
  | none => false

/-- The escapes of a code point, one for each byte. -/
def escapePoint (c : CodePoint) : Text :=
  (Utf8.encodePoint c).flatMap fun byte =>
    Text.ofString (String.ofList ('%' :: (hexText 2 byte.toNat).map Char.toUpper))

/-- A query as a location holds it.  Escapes that are there already are kept. -/
def escape : Text → Text
  | [] => []
  | c :: rest =>
    if isPlain c || (c == CodePoint.ofChar '%' && startsWithByte rest) then c :: escape rest
    else escapePoint c ++ escape rest

/-- The end of a location: the query of an address, with a question mark unless it is empty. -/
def queryOf (address : Text) : Text :=
  match (split address).2 with
  | [] => []
  | query => CodePoint.ofChar '?' :: escape query

end Address

end PenRover
