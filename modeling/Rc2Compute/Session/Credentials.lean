import Rc2Compute.Session.RSession
import Rc2Compute.Support.ConnectionUri

/-!
# The URI of the database

`handleOpenCommand` puts the four texts of an `open` message into a URI as they
are.  A delimiter or a percent sign in one of them is one of the URI too.
-/

namespace Rc2Compute.Session

open ConnectionUri (UriGrammar Options IsPlain utf8 cString)

/-- The fields `dbuser`, `dbhost`, `dbname` and `dbpass` of an `open`
message. -/
structure Credentials where
  dbuser : String
  dbhost : String
  dbname : String
  dbpass : String
deriving DecidableEq, Repr

namespace Credentials

variable (g : UriGrammar) (c : Credentials)

/-- The URI `handleOpenCommand` connects to. -/
def uri : String :=
  connectString c.dbuser c.dbhost c.dbname c.dbpass

/-- What the URI is meant to say. -/
def options : Options where
  user := utf8 c.dbuser.toList
  host := utf8 c.dbhost.toList
  dbname := utf8 c.dbname.toList
  params :=
    [(utf8 "application_name".toList, utf8 "rsession".toList),
      (utf8 "sslmode".toList, utf8 "disable".toList)] ++
    if c.dbpass.length > 0 then
      [(utf8 "password".toList, utf8 c.dbpass.toList)]
    else []

/-- The URI says the four texts, and has no other parameters. -/
def Denoted : Prop :=
  ConnectionUri.parse g c.uri.toList = some c.options

/-- No text has the delimiter that ends it, a percent sign or a zero byte. -/
structure Plain : Prop where
  dbuser : IsPlain ('@' :: g.userEnds) c.dbuser.toList
  dbhost : IsPlain ('/' :: g.hostEnds) c.dbhost.toList
  dbname : IsPlain ['?'] c.dbname.toList
  dbpass : IsPlain ('&' :: g.valueEnds) c.dbpass.toList

/-! ## The query -/

/-- The parameter of the application. -/
def nameText : List Char :=
  "application_name".toList ++ '=' :: "rsession".toList

/-- The parameter of the connection's security. -/
def modeText : List Char :=
  "sslmode".toList ++ '=' :: "disable".toList

def passwordKey : List Char := "password".toList

/-- The parameter of the password, if there is one. -/
def passwordText : List Char :=
  if c.dbpass.length > 0 then '&' :: (passwordKey ++ '=' :: c.dbpass.toList)
  else []

def queryText : List Char :=
  nameText ++ '&' :: (modeText ++ c.passwordText)

theorem passwordText_eq :
    (if c.dbpass.length > 0 then "&password=" ++ c.dbpass else "").toList =
      c.passwordText := by
  rw [passwordText]
  split
  · rw [String.toList_append]
    rfl
  · rfl

/-- A URI put together from texts. -/
theorem toList_of_texts (start user sign host slash dbname question rest : String)
    {query tail : List Char} (hstart : start.toList = ConnectionUri.scheme)
    (hsign : sign.toList = ['@']) (hslash : slash.toList = ['/'])
    (hquestion : question.toList = '?' :: query)
    (hrest : rest.toList = tail) :
    (start ++ user ++ sign ++ host ++ slash ++ dbname ++ question ++
      rest).toList =
      ConnectionUri.build user.toList host.toList dbname.toList
        (query ++ tail) := by
  simp only [String.toList_append, hstart, hsign, hslash, hquestion, hrest,
    ConnectionUri.build, List.append_assoc, List.cons_append,
    List.nil_append]

theorem uri_toList : c.uri.toList =
    ConnectionUri.build c.dbuser.toList c.dbhost.toList c.dbname.toList
      c.queryText := by
  have hquestion : "?application_name=rsession&sslmode=disable".toList =
      '?' :: (nameText ++ '&' :: modeText) := by
    decide
  have huri := toList_of_texts _ c.dbuser _ c.dbhost _ c.dbname _ _
    (rfl : "postgresql://".toList = _) (rfl : "@".toList = _)
    (rfl : "/".toList = _) hquestion c.passwordText_eq
  rw [List.append_assoc, List.cons_append] at huri
  exact huri

/-- A parameter without delimiters. -/
theorem parameter_constant {key value : List Char}
    (hkey : ∀ c ∈ key, c ≠ '=' ∧ c ≠ '%')
    (hvalue : ∀ c ∈ value, c ≠ '%' ∧ c ∉ ConnectionUri.reserved) :
    ConnectionUri.parameter g (key ++ '=' :: value) =
      some (utf8 key, utf8 value) := by
  apply (ConnectionUri.parameter_iff g hkey).mpr
  constructor
  · exact ConnectionUri.percentDecode_of_notMem fun hmem =>
      (hvalue '%' hmem).1 rfl
  · intro c hc hends
    exact (hvalue c hc).2 (g.delimiters c (List.mem_append_right _ hends))

theorem parameters_queryText_iff :
    ConnectionUri.parameters g (cString c.queryText) =
        some c.options.params ↔
      IsPlain ('&' :: g.valueEnds) c.dbpass.toList := by
  have hname : ConnectionUri.parameter g nameText =
      some (utf8 "application_name".toList, utf8 "rsession".toList) :=
    parameter_constant g (by decide) (by decide)
  have hmode : ConnectionUri.parameter g modeText =
      some (utf8 "sslmode".toList, utf8 "disable".toList) :=
    parameter_constant g (by decide) (by decide)
  unfold queryText passwordText options
  dsimp only
  by_cases hpass : c.dbpass.length > 0
  · rw [if_pos hpass, if_pos hpass]
    exact ConnectionUri.parameters_triple_iff g (by decide) (by decide)
      (by decide) hname hmode
  · have hempty : c.dbpass = "" :=
      String.length_eq_zero_iff.mp (by omega)
    rw [if_neg hpass, if_neg hpass, List.append_nil, hempty]
    refine iff_of_true ?_ fun c hc => (by cases hc)
    exact ConnectionUri.parameters_pair g (by decide) (by decide) hname hmode

theorem denoted_iff : c.Denoted g ↔ c.Plain g := by
  rw [Denoted, uri_toList]
  refine (ConnectionUri.parse_build_iff g).trans ?_
  constructor
  · rintro ⟨huser, hhost, hdbname, hparams⟩
    exact ⟨huser, hhost, hdbname, (parameters_queryText_iff g c).mp hparams⟩
  · intro h
    exact ⟨h.dbuser, h.dbhost, h.dbname,
      (parameters_queryText_iff g c).mpr h.dbpass⟩

/-- The query shows the password. -/
theorem eq_of_queryText {c c' : Credentials}
    (h : c.queryText = c'.queryText) : c.dbpass = c'.dbpass := by
  have htext : c.passwordText = c'.passwordText := by
    rw [queryText, queryText] at h
    exact List.append_cancel_left
      (List.cons.inj (List.append_cancel_left h)).2
  rw [passwordText, passwordText] at htext
  split at htext
  next =>
    split at htext
    next =>
      have hlist := List.append_cancel_left (List.cons.inj htext).2
      exact String.toList_injective (List.cons.inj hlist).2
    next => cases htext
  next hpass =>
    split at htext
    next => cases htext
    next hpass' =>
      rw [String.length_eq_zero_iff.mp (by omega : c.dbpass.length = 0),
        String.length_eq_zero_iff.mp (by omega : c'.dbpass.length = 0)]

theorem eq_of_uri {c c' : Credentials} (h : c.Plain g) (h' : c'.Plain g)
    (huri : c.uri = c'.uri) : c = c' := by
  have hlist := congrArg String.toList huri
  rw [uri_toList, uri_toList] at hlist
  obtain ⟨huser, hhost, hdbname, hquery⟩ := ConnectionUri.build_injective
    h.dbuser.notMem h'.dbuser.notMem h.dbhost.notMem h'.dbhost.notMem
    h.dbname.notMem h'.dbname.notMem hlist
  have hpass := eq_of_queryText hquery
  cases c
  cases c'
  simp only [Credentials.mk.injEq]
  exact ⟨String.toList_injective huser, String.toList_injective hhost,
    String.toList_injective hdbname, hpass⟩

/-- The URI says what it is meant to say exactly if the texts are plain, and
no two plain texts have the same URI. -/
theorem denoted_iff_plain :
    (∀ c : Credentials, c.Denoted g ↔ c.Plain g) ∧
    ∀ c c' : Credentials, c.Plain g → c'.Plain g → c.uri = c'.uri →
      c = c' :=
  ⟨fun c => denoted_iff g c, fun _ _ h h' huri => eq_of_uri g h h' huri⟩

theorem denoted_plain :
    (⟨"rc2", "db", "rc2", "p"⟩ : Credentials).Denoted
      ConnectionUri.outline :=
  ((denoted_iff_plain ConnectionUri.outline).1 _).mpr
    ⟨by decide, by decide, by decide, by decide⟩

-- With passwords in the grammar, a colon in the user begins one.
example : ConnectionUri.parse ConnectionUri.complete
    (connectString "rc2:p" "db" "rc2" "").toList = none := by
  decide

/-- A password that adds a parameter. -/
def injecting : Credentials where
  dbuser := "rc2"
  dbhost := "db"
  dbname := "rc2"
  dbpass := "p&host=evil"

/-- The URI has one more parameter, and the password is another one. -/
theorem denoted_fails_on_ampersand :
    ¬∀ c : Credentials, c.Denoted ConnectionUri.outline := by
  intro h
  have hplain := (denoted_iff ConnectionUri.outline injecting).mp
    (h injecting)
  have hpass := hplain.dbpass
  revert hpass
  decide

end Credentials

end Rc2Compute.Session
