import PaperBoxing.Common.Scopes
import PaperBoxing.Lib.IsoTime
import PaperBoxing.Lib.Disk

/-! # Bodies, errors and the language's libraries

`common/schema.py` and `common/errors.py`: the bodies of requests and answers, the error codes, and
the exceptions the handlers meet. `Runtime` holds the functions of the language's libraries that the
handlers call and that are not defined here: Unicode normalisation, `repr`, digests, and so on. -/

namespace PaperBoxing.Common.Schema

open PaperBoxing.Lib.Text PaperBoxing.Lib.IsoTime PaperBoxing.Lib.Disk PaperBoxing.Common.Scopes

/-- Every error the backend can answer with. -/
inductive ErrorCode : Type where
  | invalid_name
  | invalid_path
  | confirm_mismatch
  | bad_request
  | unauthorized
  | invalid_credentials
  | forbidden
  | session_required
  | wrong_password
  | wrong_token_type
  | not_found
  | method_not_allowed
  | site_exists
  | file_exists
  | folder_not_empty
  | not_a_file
  | not_a_folder
  | user_exists
  | last_user
  | payload_too_large
  | validation_error
  | internal_error
  | insufficient_storage
  | backend_unreachable
  deriving DecidableEq

/-- `ErrorCode.value`. -/
def ErrorCode.value : ErrorCode → String
  | .invalid_name => "invalid_name"
  | .invalid_path => "invalid_path"
  | .confirm_mismatch => "confirm_mismatch"
  | .bad_request => "bad_request"
  | .unauthorized => "unauthorized"
  | .invalid_credentials => "invalid_credentials"
  | .forbidden => "forbidden"
  | .session_required => "session_required"
  | .wrong_password => "wrong_password"
  | .wrong_token_type => "wrong_token_type"
  | .not_found => "not_found"
  | .method_not_allowed => "method_not_allowed"
  | .site_exists => "site_exists"
  | .file_exists => "file_exists"
  | .folder_not_empty => "folder_not_empty"
  | .not_a_file => "not_a_file"
  | .not_a_folder => "not_a_folder"
  | .user_exists => "user_exists"
  | .last_user => "last_user"
  | .payload_too_large => "payload_too_large"
  | .validation_error => "validation_error"
  | .internal_error => "internal_error"
  | .insufficient_storage => "insufficient_storage"
  | .backend_unreachable => "backend_unreachable"

def CODES : List ErrorCode :=
  [.invalid_name, .invalid_path, .confirm_mismatch, .bad_request, .unauthorized,
    .invalid_credentials, .forbidden, .session_required, .wrong_password, .wrong_token_type,
    .not_found, .method_not_allowed, .site_exists, .file_exists, .folder_not_empty, .not_a_file,
    .not_a_folder, .user_exists, .last_user, .payload_too_large, .validation_error,
    .internal_error, .insufficient_storage, .backend_unreachable]

/-- `ErrorCode(value)`; none where it raises `ValueError`. -/
def errorCode (value : Str) : Option ErrorCode := CODES.find? fun code => lit code.value == value

/-- **A code is read back from its value.** -/
theorem errorCode_value (code : ErrorCode) : errorCode (lit code.value) = some code := by
  cases code <;> decide

/-- `ApiError`: an error answered with a status and the body of its code and message. -/
structure ApiError : Type where
  status : ℕ
  code : ErrorCode
  message : Str
  deriving DecidableEq

/-- The exceptions the handlers meet. -/
inductive Exn : Type where
  | api (e : ApiError)
  | os (e : OsError)
  /-- `db.Conflict`: a row with the same unique key exists -/
  | conflict
  /-- `sqlite3.Error`, a broken constraint included -/
  | database
  /-- `OverflowError`: a date after year 9999, or a number of more than 64 bits in a query -/
  | overflow
  /-- `asyncio.CancelledError` -/
  | cancelled
  /-- `ClientDisconnect`, or whatever else a request's body raises -/
  | disconnected
  /-- an exception of any other kind -/
  | other
  deriving DecidableEq

/-- The functions of the language's libraries. -/
structure Runtime : Type where
  /-- `unicodedata.normalize("NFKD", s)` -/
  nfkd : Str → Str
  /-- `repr(s)` -/
  repr : Str → Str
  /-- the text of the `UnicodeEncodeError` that `s.encode("utf-8")` raises -/
  encodeError : Str → Str
  /-- `hashlib.sha256(bytes).hexdigest()` -/
  sha256 : Bytes → Str
  /-- `mimetypes.guess_type(s)[0]` -/
  guess_type : Str → Option Str
  /-- `datetime.fromtimestamp(ns / 1_000_000_000, UTC)` -/
  fromtimestamp : ℕ → Instant

/-- `argon2.PasswordHasher`: the salt of a hash is drawn when it is made. -/
structure Hasher : Type where
  hash : Str → Str → Str
  verify : Str → Str → Bool
  check_needs_rehash : Str → Bool

/-! ### Plain libraries -/

/-- The digests of the texts the plain libraries know. -/
def digests : List (Str × String) :=
  [(lit "", "e3b0c44298fc1c149afbf4c8996fb92427ae41e4649b934ca495991b7852b855"),
    (lit "a", "ca978112ca1bbdcafac231b39a23dc4da786eff8147c4e72b9807785afee48bb"),
    (lit "b", "3e23e8160039594a33894f6564e1b1348bbd7a0088d42c4acb73eeaed59c009d"),
    (lit "pb_s", "13ae31aad1de5449e625ac51ab471b7c4eada1876d4856770fd02abf924659d5"),
    (lit "pb_t", "473d426f7a0d7827904ba7aefd2e7a2b380435bd93769865d8281aa1b7832061"),
    (lit "pb_0a0", "0ca51e2be06030296e07990308f4761f391bd88f02d678962f52b1c6668ed53e"),
    (lit "pb_0a1", "30ba8e143148af97a71ee3ef31419c1a8ab1af1656bfa2a7f1277784e6ac3f7c"),
    (lit "pb_0a2", "1ebd601c0811365aba40700b236014f6436080c59e0ffe0b49d06a47ddf2b8a7")]

/-- The libraries, as they answer for plain letters and digits. -/
def plainRuntime : Runtime where
  nfkd s := s
  repr s := lit "'" ++ s ++ lit "'"
  encodeError _ := lit "surrogates not allowed"
  sha256 bytes := ((digests.find? fun r => utf8 r.1 == some bytes).map fun r => lit r.2).getD []
  guess_type _ := none
  fromtimestamp ns := (ofMicros (62135596800000000 + ns / 1000)).getD ⟨0, zero_lt⟩

/-- The digest the plain libraries know of a byte string. -/
def knownDigest (bytes : Bytes) : Option (Str × String) := digests.find? fun r => utf8 r.1 == some bytes

/-- The plain libraries, with digests for all other byte strings. -/
def apartRuntime : Runtime :=
  { plainRuntime with
    sha256 := fun bytes => match knownDigest bytes with
      | some r => lit r.2
      | none => 0 :: bytes.map fun b => Fin.ofNat 0x110000 b.toNat }

theorem knownDigest_some {bytes : Bytes} {r : Str × String} (h : knownDigest bytes = some r) :
    r ∈ digests ∧ utf8 r.1 = some bytes :=
  ⟨List.mem_of_find?_eq_some h, by simpa using List.find?_some h⟩

/-- No two byte strings have one digest. -/
theorem apartRuntime_injective {a b : Bytes} (h : apartRuntime.sha256 a = apartRuntime.sha256 b) :
    a = b := by
  have hdigests : ∀ r ∈ digests, (lit r.2).head? ≠ some 0 ∧
      ∀ s ∈ digests, lit r.2 = lit s.2 → r.1 = s.1 := by decide +kernel
  simp only [apartRuntime] at h
  rcases ha : knownDigest a with _ | r <;> rcases hb : knownDigest b with _ | s <;>
    simp only [ha, hb] at h
  · have hinj : Function.Injective fun b : UInt8 => Fin.ofNat 0x110000 b.toNat := by
      intro x y hxy
      have hx := x.toNat_lt
      have hy := y.toNat_lt
      have := congrArg Fin.val hxy
      simp only [Fin.val_ofNat] at this
      exact UInt8.toNat_inj.1 (by omega)
    exact hinj.list_map (List.cons.inj h).2
  · exact absurd (h ▸ rfl) (hdigests s (knownDigest_some hb).1).1
  · exact absurd (h ▸ rfl) (hdigests r (knownDigest_some ha).1).1
  · have h1 := knownDigest_some ha
    have h2 := knownDigest_some hb
    have := (hdigests r h1.1).2 s h2.1 h
    rw [← Option.some.injEq, ← h1.2, ← h2.2, this]

/-- A hasher that keeps the salt before the password. -/
def plainHasher : Hasher where
  hash salt password := salt ++ lit "$" ++ password
  verify hash password := (hash.dropWhile (· != ofChar '$')).drop 1 == password
  check_needs_rehash _ := false

/-- **A sound hasher**: a hash verifies the password it was made from, and no other. -/
def Hasher.Sound (hasher : Hasher) : Prop :=
  ∀ salt p q, hasher.verify (hasher.hash salt p) q = true ↔ p = q

/-- The plain hasher, with salts that cannot be mistaken. -/
def soundHasher : Hasher :=
  { plainHasher with
    hash := fun salt password => plainHasher.hash (salt.filter (· != ofChar '$')) password }

theorem soundHasher_sound : soundHasher.Sound := by
  intro salt p q
  have hdrop : ∀ salt : Str, (salt.filter (· != ofChar '$') ++ lit "$" ++ p).dropWhile
      (· != ofChar '$') = ofChar '$' :: p := by
    intro salt
    have hfilter : ∀ c ∈ salt.filter (· != ofChar '$'), (c != ofChar '$') = true :=
      fun c hc => (List.mem_filter.1 hc).2
    rw [List.append_assoc, List.dropWhile_append_of_pos hfilter,
      show lit "$" = [ofChar '$'] by decide]
    exact List.dropWhile_cons_of_neg (by simp)
  change (((salt.filter (· != ofChar '$') ++ lit "$" ++ p).dropWhile
    (· != ofChar '$')).drop 1 == q) = true ↔ p = q
  rw [hdrop, List.drop_succ_cons, List.drop_zero, beq_iff_eq]

/-! ### Bodies -/

structure User : Type where
  id : Str
  username : Str
  created_at : Instant
  deriving DecidableEq

structure Site : Type where
  slug : Str
  name : Str
  url : Str
  created_at : Instant
  file_count : ℕ
  bytes : ℕ
  deriving DecidableEq

inductive EntryType : Type where
  | file
  | folder
  deriving DecidableEq

structure FileEntry : Type where
  name : Str
  type : EntryType
  bytes : ℕ
  modified_at : Instant
  sha256 : Option Str
  deriving DecidableEq

structure FileListing : Type where
  site : Str
  path : Str
  entries : List FileEntry
  deriving DecidableEq

structure UploadResult : Type where
  path : Str
  bytes : ℕ
  sha256 : Str
  replaced : Bool
  deriving DecidableEq

structure Token : Type where
  id : Str
  name : Str
  type : TokenType
  scope : Scope
  username : Str
  created_at : Instant
  last_used_at : Option Instant
  expires_at : Option Instant
  deriving DecidableEq

structure TokenSelf : Type where
  id : Str
  name : Str
  type : TokenType
  scope : Scope
  username : Str
  expires_at : Option Instant
  deriving DecidableEq

/-- **The body of an answer.** -/
inductive Body : Type where
  | error (code : ErrorCode) (message : Str)
  | login (token : Str) (expires_at : Instant) (user : User)
  | site (site : Site)
  | site_list (sites : List Site)
  | listing (listing : FileListing)
  | upload (result : UploadResult)
  /-- a downloaded file: its bytes, media type and `Content-Disposition` -/
  | content (bytes : Bytes) (media_type disposition : Str)
  | token_list (tokens : List Token)
  | token_created (token : Token) (secret : Str)
  | token_self (token : TokenSelf)
  | user (user : User)
  | user_list (users : List User)
  | empty
  deriving DecidableEq

/-- **An answer.** -/
structure Response : Type where
  status : ℕ
  body : Body
  deriving DecidableEq

/-- `error_response`. -/
def error_response (e : ApiError) : Response := ⟨e.status, .error e.code e.message⟩

/-- The error code of an answer, if it is an error. -/
def Response.code (r : Response) : Option ErrorCode :=
  match r.body with
  | .error code _ => some code
  | _ => none

/-! ### Requests -/

structure LoginRequest : Type where
  username : Str
  password : Str

structure CreateTokenRequest : Type where
  name : Str
  scope : Scope

structure CreateUserRequest : Type where
  username : Str
  password : Str

structure ChangePasswordRequest : Type where
  current : Str
  new : Str

/-- The pattern of a username: `^[A-Za-z0-9][A-Za-z0-9._-]*$`. -/
def isUsername (username : Str) : Bool :=
  match username with
  | [] => false
  | c :: rest =>
    (isAlnum c || isUpper c) &&
      rest.all fun c => isAlnum c || isUpper c || (lit "._-").contains c

/-- The rules of `CreateUserRequest`. -/
def validUser (username password : Str) : Bool :=
  isUsername username && username.length ≤ 64 && 8 ≤ password.length

/-- `site_url`: the served address of a site. -/
def site_url (public_sites_url slug : Str) : Str :=
  (public_sites_url.reverse.dropWhile (· == slash)).reverse ++ lit "/" ++ slug ++ lit "/"

/-- `name.encode("ascii", "replace").decode("ascii").replace('"', "'")`. -/
def ascii_name (name : Str) : Str :=
  name.map fun c =>
    if !isAscii c then ofChar '?' else if c == ofChar '"' then ofChar '\'' else c

/-- `_attachment`; the name of a valid path always has an encoding. -/
def _attachment (name : Str) : Str :=
  lit "attachment; filename=\"" ++ ascii_name name ++ lit "\"; filename*=UTF-8''" ++
    (quote name).getD []

end PaperBoxing.Common.Schema
