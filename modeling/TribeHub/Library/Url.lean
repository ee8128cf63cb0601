import Mathlib.Tactic.IntervalCases
import TribeHub.Library.Js
import TribeHub.Library.Text

/-! Percent-encoding, and the URL class on texts without blanks whose scheme is not
special. A text formed from encoded credentials, a host and a port parses into them. -/
namespace Url
open Text

def upperHexDigit (n : Nat) : Char := Char.ofNat (if n < 10 then 48 + n else 55 + n)

def percentByte (byte : UInt8) : List Char :=
  ['%',upperHexDigit (byte.toNat / 16),upperHexDigit (byte.toNat % 16)]

/-- Every character outside `keep` is written as the bytes of its UTF-8 form. -/
def percentEncode (keep : Char → Bool) (text : List Char) : List Char :=
  text.flatMap (fun c => if keep c then [c] else (String.utf8EncodeChar c).flatMap percentByte)

def alphanumeric (c : Char) : Bool :=
  (48 ≤ c.toNat && c.toNat ≤ 57) || (65 ≤ c.toNat && c.toNat ≤ 90) || (97 ≤ c.toNat && c.toNat ≤ 122)

/-- The characters that `encodeURIComponent` leaves alone: those and `! ' ( ) * - . _ ~`. -/
def unreserved (c : Char) : Bool :=
  alphanumeric c || c.toNat ∈ [0x21,0x27,0x28,0x29,0x2a,0x2d,0x2e,0x5f,0x7e]

/-- The complement of the userinfo percent-encode set. -/
def userinfo (c : Char) : Bool :=
  0x21 ≤ c.toNat && c.toNat ≤ 0x7e && c.toNat ∉ [0x22,0x23,0x2f,0x3a,0x3b,0x3c,0x3d,0x3e,0x3f,0x40,0x5b,
    0x5c,0x5d,0x5e,0x60,0x7b,0x7c,0x7d]

def forbiddenHost (c : Char) : Bool :=
  c.toNat ∈ [0x00,0x09,0x0a,0x0d,0x20,0x23,0x2f,0x3a,0x3c,0x3e,0x3f,0x40,0x5b,0x5c,0x5d,0x5e,0x7c]

def opaqueHost (text : List Char) : Option (List Char) :=
  if text.any forbiddenHost then none
  else some (percentEncode (fun c => 0x20 ≤ c.toNat && c.toNat ≤ 0x7e) text)

def hexValue (c : Char) : Option Nat :=
  if 48 ≤ c.toNat ∧ c.toNat ≤ 57 then some (c.toNat - 48)
  else if 97 ≤ c.toNat ∧ c.toNat ≤ 102 then some (c.toNat - 87)
  else if 65 ≤ c.toNat ∧ c.toNat ≤ 70 then some (c.toNat - 55)
  else none

def hextet (text : List Char) : Option Nat :=
  if text.isEmpty || 4 < text.length then none
  else text.foldlM (fun value c => (hexValue c).map (16 * value + ·)) 0

def octet (text : List Char) : Option Nat :=
  if text.isEmpty || !text.all Char.isDigit || (text.length ≠ 1 && text.head? = some '0') ||
    255 < Js.number text then none else some (Js.number text)

/-- The groups of a text between colons; the last may be a dotted quad where `dotted` allows it. -/
def hextets (dotted : Bool) : List (List Char) → Option (List Nat)
  | [] => some []
  | [last] =>
    if dotted && last.contains '.' then
      match (last.splitOn '.').mapM octet with
      | some [a,b,c,d] => some [256 * a + b,256 * c + d]
      | _ => none
    else (hextet last).map ([·])
  | part :: rest => (hextet part).bind (fun group => (hextets dotted rest).map (group :: ·))

def groups (dotted : Bool) (text : List Char) : Option (List Nat) :=
  if text.isEmpty then some [] else hextets dotted (text.splitOn ':')

def splitDoubleColon : List Char → Option (List Char × List Char)
  | ':' :: ':' :: rest => some ([],rest)
  | c :: rest => (splitDoubleColon rest).map (fun sides => (c :: sides.1,sides.2))
  | [] => none

def addressChar (c : Char) : Bool := (hexValue c).isSome || c.toNat ∈ [0x2e,0x3a]

/-- The eight groups of an IPv6 address. -/
def ipv6 (text : List Char) : Option (List Nat) :=
  if !text.all addressChar then none
  else match splitDoubleColon text with
    | none => (hextets true (text.splitOn ':')).filter (fun all => all.length = 8)
    | some (left,right) =>
      (groups false left).bind (fun before => (groups true right).bind (fun after =>
        if before.length + after.length ≤ 7 then
          some (before ++ List.replicate (8 - before.length - after.length) 0 ++ after)
        else none))

def zeroRun (address : List Nat) (start : Nat) : Nat :=
  ((address.drop start).takeWhile (fun group => group = 0)).length

/-- The first longest run of at least two zero groups. -/
def compressed (address : List Nat) : Option Nat :=
  (List.range address.length).find? (fun start =>
    2 ≤ zeroRun address start &&
      (List.range address.length).all (fun other => zeroRun address other ≤ zeroRun address start))

def joinGroups (address : List Nat) : List Char := [':'].intercalate (address.map (Nat.toDigits 16))

def ipv6Text (address : List Nat) : List Char :=
  match compressed address with
  | none => joinGroups address
  | some start => joinGroups (address.take start) ++ [':',':'] ++
      joinGroups (address.drop (start + zeroRun address start))

def parsePort (text : List Char) : Option (List Char) :=
  if text.isEmpty then some []
  else if text.all Char.isDigit && Js.number text ≤ 65535 then some (Nat.toDigits 10 (Js.number text))
  else none

/-- The hostname, in brackets for an IPv6 address, and the port, empty if not given. -/
def parseHost (credentials : Bool) (text : List Char) : Option (List Char × List Char) :=
  match text with
  | '[' :: inner =>
    match cut ']' inner with
    | (address,some after) => (ipv6 address).bind (fun parsed =>
      match after with
      | [] => some (['['] ++ ipv6Text parsed ++ [']'],[])
      | ':' :: port => (parsePort port).map (fun port => (['['] ++ ipv6Text parsed ++ [']'],port))
      | _ => none)
    | (_,none) => none
  | text =>
    let (name,port) := cut ':' text
    if name.isEmpty && (credentials || port.isSome) then none
    else (opaqueHost name).bind (fun host => (parsePort (port.getD [])).map (fun port => (host,port)))

structure Record where
  protocol : String
  username : String
  password : String
  hostname : String
  port : String
  deriving DecidableEq

def schemeChar (c : Char) : Bool := alphanumeric c || c.toNat ∈ [0x2b,0x2d,0x2e]

def validScheme (scheme : List Char) : Bool :=
  (scheme.head?.any Char.isAlpha) && scheme.all schemeChar

def authorityEnd (c : Char) : Bool := c.toNat ∈ [0x23,0x2f,0x3f]

def parseAuthority (scheme authority : List Char) : Option Record :=
  let (credentials,host) := cutLast '@' authority
  let (username,password) := cut ':' (credentials.getD [])
  (parseHost credentials.isSome host).map (fun (hostname,port) =>
    ⟨.ofList (scheme.map Char.toLower ++ [':']),.ofList (percentEncode userinfo username),
      .ofList (percentEncode userinfo (password.getD [])),.ofList hostname,.ofList port⟩)

/-- `new URL(text)`; `none` is its TypeError. -/
def parse (text : String) : Option Record :=
  match cut ':' text.toList with
  | (scheme,some rest) =>
    if !validScheme scheme then none
    else match rest with
      | '/' :: '/' :: rest => parseAuthority scheme (rest.takeWhile (fun c => !authorityEnd c))
      | _ => some ⟨.ofList (scheme.map Char.toLower ++ [':']),"","","",""⟩
  | (_,none) => none

theorem percentEncode_kept {keep : Char → Bool} {text : List Char} (kept : ∀ c ∈ text, keep c = true) :
    percentEncode keep text = text := by
  induction text with
  | nil => rfl
  | cons c rest ih =>
    have tail := ih (fun other present => kept other (List.mem_cons_of_mem c present))
    unfold percentEncode at tail ⊢
    simp [kept c List.mem_cons_self,tail]

theorem percentBytes_length (c : Char) :
    2 ≤ ((String.utf8EncodeChar c).flatMap percentByte).length := by
  obtain ⟨byte,rest,split⟩ := List.exists_cons_of_ne_nil (String.utf8EncodeChar_ne_nil (c := c))
  simp [split,percentByte]

@[simp] theorem percentEncode_nil (keep : Char → Bool) : percentEncode keep [] = [] := rfl

theorem percentEncode_cons (keep : Char → Bool) (c : Char) (rest : List Char) :
    percentEncode keep (c :: rest) =
      (if keep c then [c] else (String.utf8EncodeChar c).flatMap percentByte) ++
        percentEncode keep rest := rfl

theorem percentEncode_length (keep : Char → Bool) (text : List Char) :
    text.length ≤ (percentEncode keep text).length := by
  induction text with
  | nil => exact Nat.le_refl 0
  | cons c rest ih =>
    have size := percentBytes_length c
    rw [percentEncode_cons,List.length_append,List.length_cons]
    split
    · rw [List.length_singleton]
      omega
    · omega

/-- Encoding changes a text exactly when it meets a character outside `keep`. -/
theorem percentEncode_eq_self_iff (keep : Char → Bool) (text : List Char) :
    percentEncode keep text = text ↔ ∀ c ∈ text, keep c = true := by
  refine ⟨fun same => ?_,percentEncode_kept⟩
  induction text with
  | nil => simp
  | cons c rest ih =>
    have grows := percentEncode_length keep rest
    have size := percentBytes_length c
    cases kept : keep c with
    | false =>
      have lengths := congrArg List.length same
      simp only [percentEncode_cons,kept,Bool.false_eq_true,if_false,List.length_append,
        List.length_cons] at lengths
      omega
    | true =>
      simp only [percentEncode_cons,kept,if_true,List.cons_append,List.nil_append,List.cons.injEq,
        true_and] at same
      intro other present
      rcases List.mem_cons.mp present with rfl | later
      · exact kept
      · exact ih same other later

theorem percentEncode_nil_iff {keep : Char → Bool} {text : List Char} :
    percentEncode keep text = [] ↔ text = [] := by
  refine ⟨fun empty => ?_,fun empty => by simp [empty,percentEncode]⟩
  have grows := percentEncode_length keep text
  rw [empty] at grows
  exact List.length_eq_zero_iff.mp (Nat.le_zero.mp grows)

/-- What an encoded text is made of. -/
def encoded (c : Char) : Bool := unreserved c || c.toNat = 0x25

theorem upperHexDigit_encoded {n : Nat} (bound : n < 16) : encoded (upperHexDigit n) = true := by
  interval_cases n <;> decide

theorem percentByte_encoded {byte : UInt8} {c : Char} (present : c ∈ percentByte byte) :
    encoded c = true := by
  have bound : byte.toNat < 256 := byte.toNat_lt
  simp only [percentByte,List.mem_cons,List.not_mem_nil,or_false] at present
  rcases present with rfl | rfl | rfl
  · decide
  · exact upperHexDigit_encoded (by omega)
  · exact upperHexDigit_encoded (by omega)

theorem percentEncode_encoded {text : List Char} {c : Char}
    (present : c ∈ percentEncode unreserved text) : encoded c = true := by
  obtain ⟨source,_,written⟩ := List.mem_flatMap.mp present
  split at written
  · rename_i kept
    rw [List.mem_singleton.mp written]
    simp [encoded,kept]
  · obtain ⟨byte,_,part⟩ := List.mem_flatMap.mp written
    exact percentByte_encoded part

theorem encoded_plain {c : Char} (plain : encoded c = true) :
    userinfo c = true ∧ authorityEnd c = false ∧ c ≠ ':' ∧ c ≠ '@' := by
  simp [encoded,unreserved,alphanumeric,userinfo,authorityEnd] at plain ⊢
  refine ⟨by omega,by omega,fun same => ?_,fun same => ?_⟩
  · subst same
    simp at plain
  · subst same
    simp at plain

/-- The printable characters that a host without brackets may hold. -/
def hostChar (c : Char) : Bool := 0x21 ≤ c.toNat && c.toNat ≤ 0x7e && !forbiddenHost c

theorem hostChar_plain {c : Char} (plain : hostChar c = true) :
    authorityEnd c = false ∧ c ≠ ':' ∧ c ≠ '@' ∧ c ≠ '[' := by
  simp [hostChar,forbiddenHost,authorityEnd] at plain ⊢
  refine ⟨by omega,fun same => ?_,fun same => ?_,fun same => ?_⟩ <;> subst same <;> simp at plain

theorem addressChar_plain {c : Char} (plain : addressChar c = true) :
    authorityEnd c = false ∧ c ≠ '@' ∧ c ≠ '[' ∧ c ≠ ']' := by
  refine ⟨?_,fun same => ?_,fun same => ?_,fun same => ?_⟩
  · by_contra stops
    simp only [authorityEnd,Bool.not_eq_false,decide_eq_true_eq,List.mem_cons,List.not_mem_nil,
      or_false] at stops
    rcases stops with code | code | code <;> simp [addressChar,hexValue,code] at plain
  all_goals
    subst same
    simp [addressChar,hexValue] at plain

theorem ipv6_addressChar {text : List Char} {address : List Nat} (parsed : ipv6 text = some address) :
    ∀ c ∈ text, addressChar c = true := by
  unfold ipv6 at parsed
  split at parsed
  · contradiction
  · rename_i plain
    simpa using plain

theorem digit_plain {c : Char} (digit : c.isDigit = true) :
    authorityEnd c = false ∧ c ≠ ':' ∧ c ≠ '@' := by
  have bounds := Js.digit_bounds digit
  refine ⟨?_,fun same => ?_,fun same => ?_⟩
  · simp [authorityEnd]
    omega
  all_goals
    subst same
    simp at bounds

theorem parsePort_toDigits {port : Nat} (bound : port ≤ 65535) :
    parsePort (Nat.toDigits 10 port) = some (Nat.toDigits 10 port) := by
  have digits : (Nat.toDigits 10 port).all Char.isDigit = true :=
    List.all_eq_true.mpr (fun _ present => Js.toDigits_digit present)
  simp [parsePort,digits,Js.number_toDigits,bound]

theorem opaqueHost_plain {host : List Char} (plain : ∀ c ∈ host, hostChar c = true) :
    opaqueHost host = some host := by
  have printable {c : Char} (present : c ∈ host) :
      forbiddenHost c = false ∧ 0x21 ≤ c.toNat ∧ c.toNat ≤ 0x7e := by
    have all := plain c present
    simp only [hostChar,Bool.and_eq_true,decide_eq_true_eq,Bool.not_eq_true'] at all
    exact ⟨all.2,all.1⟩
  have allowed : host.any forbiddenHost = false := by
    rw [List.any_eq_false]
    intro c present
    simp [(printable present).1]
  unfold opaqueHost
  rw [allowed,percentEncode_kept]
  · rfl
  · intro c present
    have bounds := (printable present).2
    simp
    omega

theorem parseHost_name (credentials : Bool) {host : List Char} {port : Nat} (named : host ≠ [])
    (plain : ∀ c ∈ host, hostChar c = true) (bound : port ≤ 65535) :
    parseHost credentials (host ++ ':' :: Nat.toDigits 10 port) = some (host,Nat.toDigits 10 port) := by
  have absent : ':' ∉ host := fun present => (hostChar_plain (plain _ present)).2.1 rfl
  obtain ⟨first,rest,split⟩ := List.exists_cons_of_ne_nil named
  have unbracketed : first ≠ '[' := (hostChar_plain (plain first (by simp [split]))).2.2.2
  unfold parseHost
  split
  · rename_i inner same
    rw [split,List.cons_append,List.cons.injEq] at same
    exact absurd same.1 unbracketed
  · simp [cut_append absent,named,opaqueHost_plain plain,parsePort_toDigits bound]

theorem parseHost_ipv6 (credentials : Bool) {text : List Char} {address : List Nat} {port : Nat}
    (parsed : ipv6 text = some address) (bound : port ≤ 65535) :
    parseHost credentials ('[' :: text ++ [']'] ++ ':' :: Nat.toDigits 10 port) =
      some ('[' :: ipv6Text address ++ [']'],Nat.toDigits 10 port) := by
  have absent : ']' ∉ text :=
    fun present => (addressChar_plain (ipv6_addressChar parsed _ present)).2.2.2 rfl
  have bracketed : '[' :: text ++ [']'] ++ ':' :: Nat.toDigits 10 port =
      '[' :: (text ++ ']' :: ':' :: Nat.toDigits 10 port) := by simp
  rw [bracketed]
  simp [parseHost,cut_append absent,parsed,parsePort_toDigits bound]

/-- A user with an optional password, both encoded, up to and with the `@`. -/
def credentialsText : Option (List Char × Option (List Char)) → List Char
  | none => []
  | some (username,none) => username ++ ['@']
  | some (username,some password) => username ++ ':' :: password ++ ['@']

def formed (scheme : List Char) (credentials : Option (List Char × Option (List Char)))
    (host : List Char) (path : List Char) : List Char :=
  scheme ++ ':' :: '/' :: '/' :: (credentialsText credentials ++ host ++ path)

def Encoded : Option (List Char × Option (List Char)) → Prop
  | none => True
  | some (username,password) => (∀ c ∈ username, encoded c = true) ∧
    ∀ text, password = some text → ∀ c ∈ text, encoded c = true

theorem percentEncode_userinfo {text : List Char} (plain : ∀ c ∈ text, encoded c = true) :
    percentEncode userinfo text = text :=
  percentEncode_kept (fun c present => (encoded_plain (plain c present)).1)

theorem not_mem_encoded {text : List Char} (plain : ∀ c ∈ text, encoded c = true) : ':' ∉ text :=
  fun present => (encoded_plain (plain _ present)).2.2.1 rfl

theorem credentialsText_plain {credentials : Option (List Char × Option (List Char))}
    (plain : Encoded credentials) : ∀ c ∈ credentialsText credentials, authorityEnd c = false := by
  intro c present
  match credentials with
  | none => simp [credentialsText] at present
  | some (username,none) =>
    simp only [credentialsText,List.mem_append,List.mem_singleton] at present
    rcases present with user | rfl
    · exact (encoded_plain (plain.1 c user)).2.1
    · rfl
  | some (username,some password) =>
    simp only [credentialsText,List.mem_append,List.mem_cons,List.not_mem_nil,or_false] at present
    rcases present with (user | rfl | secret) | rfl
    · exact (encoded_plain (plain.1 c user)).2.1
    · rfl
    · exact (encoded_plain (plain.2 password rfl c secret)).2.1
    · rfl

/-- Encoded credentials are read back as they were written. -/
theorem parseAuthority_formed (scheme : List Char)
    {credentials : Option (List Char × Option (List Char))} {host : List Char}
    (plain : Encoded credentials) (single : '@' ∉ host) :
    parseAuthority scheme (credentialsText credentials ++ host) =
      (parseHost credentials.isSome host).map (fun (hostname,port) =>
        ⟨.ofList (scheme.map Char.toLower ++ [':']),
          .ofList (credentials.elim [] Prod.fst),
          .ofList ((credentials.bind Prod.snd).getD []),.ofList hostname,.ofList port⟩) := by
  unfold parseAuthority
  match credentials with
  | none => simp [credentialsText,cutLast_absent single,cut]
  | some (username,none) =>
    have split := cutLast_append username single
    simp [credentialsText,split,cut_absent (not_mem_encoded plain.1),percentEncode_userinfo plain.1]
  | some (username,some password) =>
    have split := cutLast_append (username ++ ':' :: password) single
    rw [List.append_assoc,List.cons_append] at split
    simp [credentialsText,split,cut_append (not_mem_encoded plain.1),percentEncode_userinfo plain.1,
      percentEncode_userinfo (plain.2 password rfl)]

theorem validScheme_plain {scheme : List Char} (valid : validScheme scheme = true) : ':' ∉ scheme := by
  intro present
  simp only [validScheme,Bool.and_eq_true,List.all_eq_true] at valid
  exact absurd (valid.2 _ present) (by decide)

theorem parse_formed {scheme : List Char} {credentials : Option (List Char × Option (List Char))}
    {host path : List Char} (valid : validScheme scheme = true) (plain : Encoded credentials)
    (inside : ∀ c ∈ host, authorityEnd c = false)
    (outside : path = [] ∨ ∃ rest, path = '/' :: rest) :
    parse (.ofList (formed scheme credentials host path)) =
      parseAuthority scheme (credentialsText credentials ++ host) := by
  have authority : (credentialsText credentials ++ host ++ path).takeWhile (fun c => !authorityEnd c) =
      credentialsText credentials ++ host := by
    rw [List.takeWhile_append_of_pos]
    · rcases outside with rfl | ⟨rest,rfl⟩
      · simp
      · simp [authorityEnd]
    · intro c present
      rcases List.mem_append.mp present with first | second
      · simp [credentialsText_plain plain c first]
      · simp [inside c second]
  unfold parse formed
  rw [String.toList_ofList,cut_append (validScheme_plain valid)]
  simp only [valid,Bool.not_true,Bool.false_eq_true,if_false,authority]

end Url
