import TribeHub.Library.Url

/-! The Redis options that the queues build from REDIS_URL, and the login they amount to.
The user, the database, the brackets of an IPv6 host and the encoding of the password are
left as the URL class gives them or not read at all. -/
namespace TribeHub.Queues
open Url

/-- The options of an ioredis client; a field that is not set is `none`. -/
structure RedisOptions where
  host : String
  port : Option Int
  username : Option String
  password : Option String
  db : Option Nat
  maxRetriesPerRequest : Option Nat
  enableReadyCheck : Bool
  tls : Bool
  deriving DecidableEq

inductive ConnectionError where
  | error (message : String)
  | invalidUrl
  deriving DecidableEq

/-- A port of `none` is NaN. -/
def optionsOf (redisTls : Option String) (url : Record) : RedisOptions where
  host := url.hostname
  port := if url.port ≠ "" then Js.parseInt url.port else some 6379
  username := none
  password := if url.password ≠ "" then some url.password else none
  db := none
  maxRetriesPerRequest := none
  enableReadyCheck := false
  tls := url.protocol = "rediss:" ∨ redisTls = some "true"

def parseRedisUrl (redisTls : Option String) (redisUrl : String) : Except ConnectionError RedisOptions :=
  match parse redisUrl with
  | none => .error .invalidUrl
  | some url => .ok (optionsOf redisTls url)

/-- `redisTls` and `redisUrl` are the variables REDIS_TLS and REDIS_URL. -/
def getRedisConnection (redisTls redisUrl : Option String) : Except ConnectionError RedisOptions :=
  match redisUrl with
  | none => .error (.error notSet)
  | some text => if text = "" then .error (.error notSet) else parseRedisUrl redisTls text
where
  notSet := "REDIS_URL environment variable is not set. " ++
    "Configure it in Railway (or your deployment environment) before starting the app."

/-- A name or dotted IPv4 address, or the text of an IPv6 address. -/
inductive Host where
  | name (text : String) (named : text ≠ "") (plain : ∀ c ∈ text.toList, hostChar c = true)
  | ipv6 (text : String) (address : List Nat) (parsed : Url.ipv6 text.toList = some address)

def Host.text : Host → List Char
  | .name text _ _ => text.toList
  | .ipv6 text _ _ => '[' :: text.toList ++ [']']

structure Components where
  tls : Bool
  host : Host
  port : Nat
  port_le : port ≤ 65535
  username : Option String
  password : Option String
  db : Option Nat

def encode (text : String) : List Char := percentEncode unreserved text.toList

def Components.credentials (parts : Components) : Option (List Char × Option (List Char)) :=
  match parts.username,parts.password with
  | none,none => none
  | username,password => some (encode (username.getD ""),password.map encode)

def Components.scheme (parts : Components) : String := if parts.tls then "rediss" else "redis"

def Components.path (parts : Components) : List Char :=
  match parts.db with
  | none => []
  | some db => '/' :: Nat.toDigits 10 db

def Components.url (parts : Components) : String :=
  .ofList (formed parts.scheme.toList parts.credentials
    (parts.host.text ++ ':' :: Nat.toDigits 10 parts.port) parts.path)

/-- The user and password that a client sends; without a user name the default user. -/
def auth (username password : Option String) : Option (String × String) :=
  if username.getD "" ≠ "" then some (username.getD "",password.getD "")
  else if password.getD "" ≠ "" then some ("default",password.getD "")
  else none

def Host.DenotedBy (host : String) : Host → Prop
  | .name text _ _ => host = text
  | .ipv6 _ address _ => Url.ipv6 host.toList = some address

structure Denotes (options : RedisOptions) (parts : Components) : Prop where
  host : parts.host.DenotedBy options.host
  port : options.port = some parts.port
  auth : auth options.username options.password = auth parts.username parts.password
  db : options.db.getD 0 = parts.db.getD 0

def Host.IsName : Host → Prop
  | .name _ _ _ => True
  | .ipv6 _ _ _ => False

/-- A host without brackets, no user but the default one, a password that needs no
encoding, and the first database. -/
structure Plain (parts : Components) : Prop where
  host : parts.host.IsName
  username : parts.username.getD "" = "" ∨
    (parts.username = some "default" ∧ parts.password.getD "" ≠ "")
  password : ∀ c ∈ (parts.password.getD "").toList, unreserved c = true
  db : parts.db.getD 0 = 0

theorem encode_encoded (text : String) : ∀ c ∈ encode text, encoded c = true :=
  fun _ present => percentEncode_encoded present

theorem encode_eq_iff (text : String) :
    encode text = text.toList ↔ ∀ c ∈ text.toList, unreserved c = true :=
  percentEncode_eq_self_iff unreserved text.toList

theorem ofList_encode_empty_iff (text : String) : String.ofList (encode text) = "" ↔ text = "" := by
  rw [← String.toList_inj,← String.toList_inj]
  simp [encode,percentEncode_nil_iff]

theorem Components.credentials_encoded (parts : Components) : Encoded parts.credentials := by
  obtain ⟨tls,host,port,port_le,username,password,db⟩ := parts
  match username,password with
  | none,none => trivial
  | some username,password =>
    refine ⟨encode_encoded username,fun text same => ?_⟩
    obtain ⟨secret,_,rfl⟩ := Option.map_eq_some_iff.mp same
    exact encode_encoded secret
  | none,some password =>
    refine ⟨encode_encoded "",fun text same => ?_⟩
    obtain rfl := Option.some.inj same
    exact encode_encoded password

theorem Components.password_read (parts : Components) :
    (parts.credentials.bind Prod.snd).getD [] = encode (parts.password.getD "") := by
  obtain ⟨tls,host,port,port_le,username,password,db⟩ := parts
  match username,password with
  | none,none => rfl
  | some username,none => rfl
  | some username,some password => rfl
  | none,some password => rfl

theorem Host.plain (host : Host) : ∀ c ∈ host.text, authorityEnd c = false ∧ c ≠ '@' := by
  intro c present
  cases host with
  | name text named plain =>
    have allowed := hostChar_plain (plain c present)
    exact ⟨allowed.1,allowed.2.2.1⟩
  | ipv6 text address parsed =>
    simp only [Host.text,List.mem_append,List.mem_cons,List.not_mem_nil,or_false] at present
    rcases present with (rfl | inside) | rfl
    · decide
    · have allowed := addressChar_plain (ipv6_addressChar parsed c inside)
      exact ⟨allowed.1,allowed.2.1⟩
    · decide

/-- The hostname that the URL class gives back: an address is printed anew. -/
def Host.hostname : Host → List Char
  | .name text _ _ => text.toList
  | .ipv6 _ address _ => '[' :: ipv6Text address ++ [']']

theorem parseHost_host (credentials : Bool) (host : Host) {port : Nat} (bound : port ≤ 65535) :
    parseHost credentials (host.text ++ ':' :: Nat.toDigits 10 port) =
      some (host.hostname,Nat.toDigits 10 port) := by
  cases host with
  | name text named plain =>
    have nonempty : text.toList ≠ [] := by simpa using named
    exact parseHost_name credentials nonempty plain bound
  | ipv6 text address parsed => exact parseHost_ipv6 credentials parsed bound

theorem parse_url (parts : Components) : ∃ username, parse parts.url = some
    ⟨parts.scheme ++ ":",username,.ofList (encode (parts.password.getD "")),
      .ofList parts.host.hostname,.ofList (Nat.toDigits 10 parts.port)⟩ := by
  have valid : validScheme parts.scheme.toList = true := by
    unfold Components.scheme
    split <;> decide
  have lower : String.ofList (parts.scheme.toList.map Char.toLower ++ [':']) = parts.scheme ++ ":" := by
    unfold Components.scheme
    split <;> decide
  have port_plain : ∀ c ∈ ':' :: Nat.toDigits 10 parts.port, authorityEnd c = false ∧ c ≠ '@' := by
    intro c present
    rcases List.mem_cons.mp present with rfl | digit
    · decide
    · have allowed := digit_plain (Js.toDigits_digit digit)
      exact ⟨allowed.1,allowed.2.2⟩
  have plain : ∀ c ∈ parts.host.text ++ ':' :: Nat.toDigits 10 parts.port,
      authorityEnd c = false ∧ c ≠ '@' := by
    intro c present
    rcases List.mem_append.mp present with host | port
    · exact parts.host.plain c host
    · exact port_plain c port
  have outside : parts.path = [] ∨ ∃ rest, parts.path = '/' :: rest := by
    unfold Components.path
    split
    · exact Or.inl rfl
    · exact Or.inr ⟨_,rfl⟩
  refine ⟨.ofList (parts.credentials.elim [] Prod.fst),?_⟩
  unfold Components.url
  rw [parse_formed valid parts.credentials_encoded (fun c present => (plain c present).1) outside,
    parseAuthority_formed _ parts.credentials_encoded (fun present => (plain _ present).2 rfl),
    parseHost_host _ _ parts.port_le,Option.map_some,lower,parts.password_read]

def Components.options (parts : Components) (redisTls : Option String) : RedisOptions where
  host := .ofList parts.host.hostname
  port := some parts.port
  username := none
  password := if parts.password.getD "" ≠ "" then some (.ofList (encode (parts.password.getD "")))
    else none
  db := none
  maxRetriesPerRequest := none
  enableReadyCheck := false
  tls := parts.tls ∨ redisTls = some "true"

theorem getRedisConnection_url (parts : Components) (redisTls : Option String) :
    getRedisConnection redisTls (some parts.url) = .ok (parts.options redisTls) := by
  obtain ⟨username,parsed⟩ := parse_url parts
  have nonempty : parts.url ≠ "" := by
    intro empty
    have fails : parse "" = none := by rfl
    rw [empty,fails] at parsed
    contradiction
  have port : String.ofList (Nat.toDigits 10 parts.port) = toString parts.port := by
    rw [Nat.toString_eq_ofList_toDigits]
  have given : toString parts.port ≠ "" := by simp
  have secret := ofList_encode_empty_iff (parts.password.getD "")
  have secure : parts.scheme ++ ":" = "rediss:" ↔ parts.tls = true := by
    unfold Components.scheme
    cases parts.tls <;> decide
  simp only [getRedisConnection,nonempty,if_false,parseRedisUrl,parsed,optionsOf,Components.options,
    port,given,ne_eq,not_false_eq_true,if_true,Js.parseInt_toString,secret,secure]

/-- The code sends a password as it stands in the URL, and always for the default user. -/
theorem auth_options (parts : Components) (redisTls : Option String) :
    auth (parts.options redisTls).username (parts.options redisTls).password =
      if parts.password.getD "" = "" then none
      else some ("default",.ofList (encode (parts.password.getD ""))) := by
  have secret := ofList_encode_empty_iff (parts.password.getD "")
  by_cases empty : parts.password.getD "" = ""
  · simp [auth,Components.options,empty]
  · simp [auth,Components.options,empty,secret]

theorem ofList_encode_iff (text : String) :
    String.ofList (encode text) = text ↔ ∀ c ∈ text.toList, unreserved c = true := by
  rw [← encode_eq_iff,← String.toList_inj,String.toList_ofList]

theorem username_default_iff (username : Option String) :
    username = some "default" ↔ username.getD "" = "default" := by
  cases username <;> simp

theorem auth_options_iff (parts : Components) (redisTls : Option String) :
    auth (parts.options redisTls).username (parts.options redisTls).password =
        auth parts.username parts.password ↔
      (parts.username.getD "" = "" ∨
        (parts.username = some "default" ∧ parts.password.getD "" ≠ "")) ∧
        ∀ c ∈ (parts.password.getD "").toList, unreserved c = true := by
  rw [auth_options,← ofList_encode_iff,username_default_iff]
  unfold auth
  generalize parts.username.getD "" = username
  generalize parts.password.getD "" = password
  by_cases noPassword : password = ""
  · have unchanged : String.ofList (encode "") = "" := rfl
    by_cases noUser : username = "" <;> simp [noPassword,noUser,unchanged]
  · by_cases noUser : username = ""
    · simp [noPassword,noUser]
    · simp [noPassword,noUser,eq_comm]

theorem host_denoted_iff (host : Host) :
    host.DenotedBy (.ofList host.hostname) ↔ host.IsName := by
  cases host with
  | name text named plain => simp [Host.DenotedBy,Host.hostname,Host.IsName]
  | ipv6 text address parsed =>
    simp only [Host.DenotedBy,Host.hostname,Host.IsName,String.toList_ofList,iff_false]
    -- no address holds the bracket that the hostname begins with
    intro read
    have bracket := ipv6_addressChar read '[' (by simp)
    exact (addressChar_plain bracket).2.2.1 rfl

/-- The options that getRedisConnection returns lead where the connection string was meant
to lead exactly for plain components. -/
theorem getRedisConnection_denotes_iff (parts : Components) (redisTls : Option String) :
    (∃ options, getRedisConnection redisTls (some parts.url) = .ok options ∧ Denotes options parts) ↔
      Plain parts := by
  have login := auth_options_iff parts redisTls
  have host := host_denoted_iff parts.host
  have returned := getRedisConnection_url parts redisTls
  constructor
  · intro found
    obtain ⟨options,returns,denotes⟩ := found
    obtain rfl := Except.ok.inj (returned.symm.trans returns)
    obtain ⟨username,password⟩ := login.mp denotes.auth
    exact ⟨host.mp denotes.host,username,password,denotes.db.symm⟩
  · intro plain
    exact ⟨_,returned,host.mpr plain.host,rfl,login.mpr ⟨plain.username,plain.password⟩,plain.db.symm⟩

def atSignParts : Components where
  tls := false
  host := .name "redis" (by decide) (List.all_eq_true.mp (by decide))
  port := 6379
  port_le := by decide
  username := none
  password := some "p@ss"
  db := none

/-- `redis://:p%40ss@redis:6379` makes the queues log in with the password `p%40ss`. -/
theorem encoded_password_sent :
    ¬∀ parts redisTls, ∃ options, getRedisConnection redisTls (some parts.url) = .ok options ∧
      Denotes options parts := by
  intro promised
  obtain ⟨options,returns,denotes⟩ := promised atSignParts none
  obtain rfl := Except.ok.inj ((getRedisConnection_url atSignParts none).symm.trans returns)
  exact absurd denotes.auth (by decide)

end TribeHub.Queues
