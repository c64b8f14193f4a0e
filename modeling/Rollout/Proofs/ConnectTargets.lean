import Rollout.Proofs.Shapes

/-!
# Connect targets

A connect target is cut at its last at sign, and each of its two sides at the first colon. So a password may hold
at signs and colons, and a user may hold at signs, but a host neither. What is accepted is just what can be
written in this form with a port that fits sixteen bits, and what is read is what was written: a password that
is absent is not one that is empty, and a port that is absent is the usual one.
-/

namespace Rollout.Script

open Rollout.Text
open Rollout.Script.Statement (cutAt cutAt_eq_some)

section Cutting

variable {mark : Char} {before after : List Char}

theorem cutAt_append_mark (absent : mark ∉ before) (after : List Char) :
    cutAt mark (before ++ mark :: after) = some (before, after) := by
  induction before with
  | nil => rw [List.nil_append, cutAt, if_pos rfl]
  | cons c rest ih =>
    rw [List.mem_cons, not_or] at absent
    rw [List.cons_append, cutAt, if_neg (Ne.symm absent.1), ih absent.2]
    rfl

theorem cutAt_of_not_mem {text : List Char} (absent : mark ∉ text) : cutAt mark text = none := by
  induction text with
  | nil => rfl
  | cons c rest ih =>
    rw [List.mem_cons, not_or] at absent
    rw [cutAt, if_neg (Ne.symm absent.1), ih absent.2]
    rfl

theorem cutAtLast_append_mark (absent : mark ∉ after) (before : List Char) :
    cutAtLast mark (before ++ mark :: after) = some (before, after) := by
  have turned : (before ++ mark :: after).reverse = after.reverse ++ mark :: before.reverse := by simp
  rw [cutAtLast, turned, cutAt_append_mark (by simpa using absent)]
  simp

end Cutting

/-! ### Ports -/

section Ports

variable {text digits : List Char} {value : Nat} {port : UInt16} {c : Char}

structure AreDigits (digits : List Char) (value : Nat) : Prop where
  written : digits ≠ []
  digit : ∀ c ∈ digits, c.isDigit = true
  value : Nat.ofDigitChars 10 digits 0 = value

/-- A decimal numeral for the value: digits, perhaps after a plus sign. -/
def IsNumeral (text : List Char) (value : Nat) : Prop :=
  AreDigits text value ∨ ∃ digits, text = '+' :: digits ∧ AreDigits digits value

/-- The digits of a number are a numeral for it. -/
theorem isNumeral_toString (value : Nat) : IsNumeral (toString value).toList value := by
  rw [Nat.toString_eq_repr, Nat.repr_eq_ofList_toDigits, String.toList_ofList]
  exact .inl ⟨Nat.toDigits_ne_nil, fun c member => Nat.isDigit_of_mem_toDigits (by decide) (by decide) member,
    Nat.ofDigitChars_toDigits (by decide) (by decide)⟩

theorem IsNumeral.not_mem (numeral : IsNumeral text value) (noDigit : c.isDigit = false) (noSign : c ≠ '+') :
    c ∉ text := by
  have outside {digits : List Char} (are : AreDigits digits value) : c ∉ digits :=
    fun inside => Bool.false_ne_true (noDigit.symm.trans (are.digit c inside))
  rcases numeral with bare | ⟨digits, rfl, signed⟩
  · exact outside bare
  · simpa [noSign] using outside signed

/-- What is done with the characters behind the sign of a port. -/
theorem areDigits_iff :
    (if digits.isEmpty || !digits.all Char.isDigit then none
      else if decimal digits < UInt16.size then some (UInt16.ofNat (decimal digits))
      else none) = some port ↔ AreDigits digits port.toNat := by
  split
  next unfit =>
    refine ⟨nofun, fun are => ?_⟩
    simp [are.written] at unfit
    grind [are.digit]
  next fit =>
    simp only [Bool.or_eq_true, not_or, Bool.not_eq_true', List.isEmpty_iff] at fit
    split
    next small =>
      rw [Option.some_inj, ← UInt16.toNat_inj, UInt16.toNat_ofNat_of_lt' small]
      exact ⟨fun same => ⟨fit.1, by simpa using fit.2, same⟩, fun are => are.value⟩
    next large =>
      exact ⟨nofun, fun are => absurd (are.value.trans_lt port.toNat_lt) large⟩

/-- A port is read from the numerals for it. -/
theorem port?_eq_some_iff : port? text = some port ↔ IsNumeral text port.toNat := by
  unfold port? IsNumeral
  split
  next rest =>
    rw [areDigits_iff]
    refine ⟨fun are => .inr ⟨rest, rfl, are⟩, ?_⟩
    rintro (bare | ⟨digits, same, are⟩)
    · exact absurd (bare.digit '+' List.mem_cons_self) (by decide)
    · cases same
      exact are
  next unsigned =>
    rw [areDigits_iff]
    refine ⟨.inl, ?_⟩
    rintro (bare | ⟨digits, signed, -⟩)
    · exact bare
    · exact absurd signed (unsigned digits)

end Ports

/-! ### Targets -/

/-- A part that can be left out together with the colon before it. -/
def behindColon : Option String → String
  | none => ""
  | some text => ":" ++ text

/-- The target of its parts: `user[:password]@host[:port]`. -/
def targetText (user : String) (password : Option String) (host : String) (numeral : Option String) : String :=
  user ++ behindColon password ++ "@" ++ host ++ behindColon numeral

structure IsUser (user : String) : Prop where
  written : user ≠ ""
  noColon : ':' ∉ user.toList

structure IsHost (host : String) : Prop where
  written : host ≠ ""
  noColon : ':' ∉ host.toList
  noAt : '@' ∉ host.toList

/-- The port of a target: what the numeral is for, and the usual one without a numeral. -/
def GivesPort : Option String → UInt16 → Prop
  | none, port => port = defaultPort
  | some numeral, port => IsNumeral numeral.toList port.toNat

section Targets

variable {user host : String} {password numeral : Option String} {port : UInt16} {login : Login}

theorem GivesPort.noAt (gives : GivesPort numeral port) : '@' ∉ (behindColon numeral).toList := by
  cases numeral with
  | none => simp [behindColon]
  | some numeral => simpa [behindColon] using IsNumeral.not_mem gives (by decide) (by decide)

/-- Behind a text without colons, the first colon is the one before the other part. -/
theorem cutAt_behindColon {text : String} (noColon : ':' ∉ text.toList) (other : Option String) :
    cutAt ':' (text.toList ++ (behindColon other).toList) = other.map fun other => (text.toList, other.toList) := by
  cases other with
  | none => simpa [behindColon] using cutAt_of_not_mem noColon
  | some other => simpa [behindColon] using cutAt_append_mark noColon other.toList

def loginTo (username host : List Char) (port : UInt16) (password : Option String) : Except Fault Login :=
  if username.isEmpty then .error .noUsername
  else if host.isEmpty then .error .noHost
  else .ok { username := String.ofList username, host := String.ofList host, port, password }

theorem loginTo_eq_ok_iff {username host : List Char} : loginTo username host port password = .ok login ↔
    username ≠ [] ∧ host ≠ [] ∧ ⟨String.ofList username, String.ofList host, port, password⟩ = login := by
  unfold loginTo
  split
  next noUser => simp_all
  next user =>
    split
    next noHost => simp_all
    next => simp_all

theorem loginAt_eq (username : List Char) (password : Option String) (address : List Char) :
    loginAt username password address =
      match cutAt ':' address with
      | none => loginTo username address defaultPort password
      | some (host, port) =>
        match port? port with
        | none => .error (.badPort (String.ofList port))
        | some port => loginTo username host port password :=
  rfl

/-- At an address written as a host and a port, the login is for these. -/
theorem loginAt_host (isUser : IsUser user) (isHost : IsHost host) (gives : GivesPort numeral port) :
    loginAt user.toList password (host.toList ++ (behindColon numeral).toList) =
      .ok ⟨user, host, port, password⟩ := by
  have made (port : UInt16) : loginTo user.toList host.toList port password = .ok ⟨user, host, port, password⟩ :=
    loginTo_eq_ok_iff.2 ⟨by simp [isUser.written], by simp [isHost.written], by simp⟩
  rw [loginAt_eq, cutAt_behindColon isHost.noColon]
  cases numeral with
  | none =>
    cases gives
    simpa [behindColon] using made defaultPort
  | some numeral => simpa [port?_eq_some_iff.2 gives] using made port

/-- An address at which there is a login is written as its host and its port. -/
theorem exists_numeral {username address : List Char} (made : loginAt username password address = .ok login) :
    login.username = String.ofList username ∧ login.password = password ∧
      ∃ numeral, GivesPort numeral login.port ∧ address = login.host.toList ++ (behindColon numeral).toList := by
  rw [loginAt_eq] at made
  split at made
  next =>
    obtain ⟨-, -, rfl⟩ := loginTo_eq_ok_iff.1 made
    exact ⟨rfl, rfl, none, rfl, by simp [behindColon]⟩
  next host written cut =>
    obtain ⟨rfl, -⟩ := cutAt_eq_some cut
    split at made
    · cases made
    next port read =>
      obtain ⟨-, -, rfl⟩ := loginTo_eq_ok_iff.1 made
      refine ⟨rfl, rfl, some (String.ofList written), ?_, by simp [behindColon]⟩
      simpa [GivesPort] using port?_eq_some_iff.1 read

theorem loginOf_user (noColon : ':' ∉ user.toList) (password : Option String) (address : List Char) :
    loginOf (user.toList ++ (behindColon password).toList) address = loginAt user.toList password address := by
  rw [loginOf_eq, cutAt_behindColon noColon]
  cases password <;> simp [behindColon]

/-- What is written in front of the last at sign is a user and a password. -/
theorem exists_user {credentials address : List Char} (made : loginOf credentials address = .ok login) :
    credentials = login.username.toList ++ (behindColon login.password).toList ∧
      ∃ numeral, GivesPort numeral login.port ∧ address = login.host.toList ++ (behindColon numeral).toList := by
  rw [loginOf_eq] at made
  split at made
  next username password cut =>
    obtain ⟨rfl, -⟩ := cutAt_eq_some cut
    obtain ⟨named, secret, numeral⟩ := exists_numeral made
    exact ⟨by simp [named, secret, behindColon], numeral⟩
  next =>
    obtain ⟨named, secret, numeral⟩ := exists_numeral made
    exact ⟨by simp [named, secret, behindColon], numeral⟩

/-- The targets from which a login is read: the texts of its parts, with one of the numerals for its port. -/
theorem ofText_eq_ok_iff {text : String} : Login.ofText text = .ok login ↔
    IsUser login.username ∧ IsHost login.host ∧
      ∃ numeral, GivesPort numeral login.port ∧
        text = targetText login.username login.password login.host numeral := by
  constructor
  · intro read
    obtain ⟨shaped, -⟩ := Login.ofText_eq_ok read
    refine ⟨⟨shaped.user.1, shaped.user.2⟩, ⟨shaped.host.1, shaped.host.2.1, shaped.host.2.2⟩, ?_⟩
    unfold Login.ofText at read
    split at read
    · cases read
    next credentials address cut =>
      obtain ⟨whole, -⟩ := cutAtLast_eq_some cut
      obtain ⟨before, numeral, gives, after⟩ := exists_user read
      refine ⟨numeral, gives, ?_⟩
      rw [← String.toList_inj, whole, before, after]
      simp [targetText]
  · rintro ⟨isUser, isHost, numeral, gives, rfl⟩
    have noAt : '@' ∉ login.host.toList ++ (behindColon numeral).toList := by
      rw [List.mem_append, not_or]
      exact ⟨isHost.noAt, gives.noAt⟩
    have cut := cutAtLast_append_mark noAt (login.username.toList ++ (behindColon login.password).toList)
    have whole : (targetText login.username login.password login.host numeral).toList =
        login.username.toList ++ (behindColon login.password).toList ++
          '@' :: (login.host.toList ++ (behindColon numeral).toList) := by
      simp [targetText]
    unfold Login.ofText
    rw [whole, cut]
    exact (loginOf_user isUser.noColon _ _).trans (loginAt_host isUser isHost gives)

/-- A connect target is accepted just if it can be written `user[:password]@host[:port]` with a user, a host
and a port of at most 65535, and then these are what is read, whatever signs are in the user and the
password. The login that is read, written with its port in full, is read back from its target. -/
theorem connect_targets_read_back :
    (∀ text, (∃ login, Login.ofText text = .ok login) ↔
      ∃ user password host numeral, text = targetText user password host numeral ∧ IsUser user ∧ IsHost host ∧
        ∀ written ∈ numeral, ∃ value ≤ 65535, IsNumeral written.toList value) ∧
    (∀ user password host, IsUser user → IsHost host →
      Login.ofText (targetText user password host none) = .ok ⟨user, host, 22, password⟩ ∧
      (∀ numeral port, IsNumeral numeral.toList port.toNat →
        Login.ofText (targetText user password host (some numeral)) = .ok ⟨user, host, port, password⟩) ∧
      ∀ port : UInt16, Login.ofText (targetText user password host (some (toString port.toNat))) =
        .ok ⟨user, host, port, password⟩) ∧
    ∀ text login, Login.ofText text = .ok login →
      Login.ofText (targetText login.username login.password login.host (some (toString login.port.toNat))) =
        .ok login := by
  refine ⟨fun text => ⟨?_, ?_⟩, fun user password host isUser isHost => ⟨?_, ?_, ?_⟩, fun text login read => ?_⟩
  · rintro ⟨login, read⟩
    obtain ⟨isUser, isHost, numeral, gives, whole⟩ := ofText_eq_ok_iff.1 read
    refine ⟨_, _, _, numeral, whole, isUser, isHost, ?_⟩
    rintro written rfl
    exact ⟨_, Nat.le_of_lt_succ login.port.toNat_lt, gives⟩
  · rintro ⟨user, password, host, numeral, whole, isUser, isHost, valued⟩
    have given : ∃ port, GivesPort numeral port := by
      cases numeral with
      | none => exact ⟨_, rfl⟩
      | some written =>
        obtain ⟨value, small, isNumeral⟩ := valued written rfl
        refine ⟨UInt16.ofNat value, ?_⟩
        rwa [GivesPort, UInt16.toNat_ofNat_of_lt' (Nat.lt_succ_of_le small)]
    obtain ⟨port, gives⟩ := given
    exact ⟨⟨user, host, port, password⟩, ofText_eq_ok_iff.2 ⟨isUser, isHost, numeral, gives, whole⟩⟩
  · exact ofText_eq_ok_iff.2 ⟨isUser, isHost, none, rfl, rfl⟩
  · intro numeral port isNumeral
    exact ofText_eq_ok_iff.2 ⟨isUser, isHost, some numeral, isNumeral, rfl⟩
  · intro port
    exact ofText_eq_ok_iff.2 ⟨isUser, isHost, some _, isNumeral_toString _, rfl⟩
  · obtain ⟨isUser, isHost, -⟩ := ofText_eq_ok_iff.1 read
    exact ofText_eq_ok_iff.2 ⟨isUser, isHost, some _, isNumeral_toString _, rfl⟩

/-- Signs in the user and the password, and a port with a sign and zeros. -/
theorem connect_targets_read_back_signs :
    Login.ofText "a@b:p@:s@host:+0022" = .ok ⟨"a@b", "host", 22, some "p@:s"⟩ ∧
      Login.ofText "a@b:p@:s@host" = .ok ⟨"a@b", "host", 22, some "p@:s"⟩ ∧
      Login.ofText "a@b:@host:22" = .ok ⟨"a@b", "host", 22, some ""⟩ := by
  have isUser : IsUser "a@b" := ⟨by decide, by decide⟩
  have isHost : IsHost "host" := ⟨by decide, by decide, by decide⟩
  have isNumeral : IsNumeral "+0022".toList (22 : UInt16).toNat :=
    .inr ⟨['0', '0', '2', '2'], by decide, by decide, by simp, by decide⟩
  obtain ⟨plain, given, -⟩ := connect_targets_read_back.2.1 "a@b" (some "p@:s") "host" isUser isHost
  obtain ⟨-, -, shown⟩ := connect_targets_read_back.2.1 "a@b" (some "") "host" isUser isHost
  have signed : targetText "a@b" (some "p@:s") "host" (some "+0022") = "a@b:p@:s@host:+0022" := by decide
  have bare : targetText "a@b" (some "p@:s") "host" none = "a@b:p@:s@host" := by decide
  have secretless : targetText "a@b" (some "") "host" (some (toString (22 : UInt16).toNat)) = "a@b:@host:22" := by
    decide
  exact ⟨signed ▸ given "+0022" 22 isNumeral, bare ▸ plain, secretless ▸ shown 22⟩

end Targets

end Rollout.Script
