import RvHouse.Http.Url
import RvHouse.Networking.Login

/-!
# The sites of login requests

`login_manager_rvzt` takes its two addresses from the configuration and lets through those of five
hosts only (`construct`). A request goes to the address with the user's name and password behind it.
`request_checked_iff`: it can always be parsed, and it goes to one of the five hosts if and only if
the address has a path.
-/

namespace RvHouse

namespace LoginManager

/-- `_check_auth_url`. -/
def checkAuthUrl (u : Url) : Bool :=
  u.host ∈ ["rvzt.zackattackgames.com".toList, "rvzone.zackattackgames.com".toList,
    "www.revoltrace.com".toList, "revoltzone.net".toList, "www.revoltzone.net".toList]

/-- The constructor, for what the configuration has; the error is what it throws. -/
def construct (m : LoginManager) : Except String LoginManager :=
  match Url.parse m.baseValidateUrl.toList, Url.parse m.baseRegisterUrl.toList with
  | .error what, _ => .error what
  | .ok _, .error what => .error what
  | .ok validateUrl, .ok registerUrl =>
    if !checkAuthUrl validateUrl then .error "Invalid validation URL"
    else if !checkAuthUrl registerUrl then .error "Invalid register URL"
    else .ok m

/-- The address from the configuration that a request begins with. -/
def baseUrl (m : LoginManager) : LoginRequest → String
  | .login _ _ => m.baseValidateUrl
  | .register _ _ _ => m.baseRegisterUrl

/-- What a request puts behind it. -/
def query : LoginRequest → String
  | .login user pass => "?user=" ++ user ++ "&pass=" ++ pass
  | .register user pass mail => "?user=" ++ user ++ "&pass=" ++ pass ++ "&mail=" ++ mail

theorem reqUrl_eq (m : LoginManager) (r : LoginRequest) : m.reqUrl r = m.baseUrl r ++ query r := by
  cases r <;> simp [reqUrl, baseUrl, query, String.append_assoc]

/-- The address has a path, or it ends before the request could be put behind it. -/
def HasPath (base : String) : Prop :=
  (∃ u, Url.captures base.toList = some u ∧ u.file ≠ []) ∨ Char.ofNat 0 ∈ base.toList

theorem checkAuthUrl_filled (u : Url) : checkAuthUrl u.filled = checkAuthUrl u := rfl

/-- A host that is let through has no question mark. -/
theorem checkAuthUrl_of_mem {u : Url} (h : '?' ∈ u.host) : checkAuthUrl u = false := by
  refine decide_eq_false fun hmem => ?_
  have hnone : ∀ host ∈ ["rvzt.zackattackgames.com".toList, "rvzone.zackattackgames.com".toList,
      "www.revoltrace.com".toList, "revoltzone.net".toList, "www.revoltzone.net".toList],
      '?' ∉ host := by decide
  exact hnone u.host hmem h

theorem exists_captures_of_parse {s : List Char} {v : Url} (h : Url.parse s = .ok v) :
    ∃ u, Url.captures s = some u ∧ u.filled = v := by
  unfold Url.parse at h
  split at h
  · rename_i u hu
    exact ⟨u, hu, Except.ok.inj h⟩
  · cases h

/-- A manager that is constructed has two addresses of the five hosts. -/
theorem checked_of_construct {m m' : LoginManager} (h : m.construct = .ok m') (r : LoginRequest) :
    ∃ u, Url.captures (m'.baseUrl r).toList = some u ∧ checkAuthUrl u = true := by
  unfold construct at h
  split at h
  · cases h
  · cases h
  · rename_i v w hv hw
    obtain ⟨u, hu, rfl⟩ := exists_captures_of_parse hv
    obtain ⟨u', hu', rfl⟩ := exists_captures_of_parse hw
    split at h
    · cases h
    · rename_i hcheck
      split at h
      · cases h
      · rename_i hcheck'
        cases h
        cases r with
        | login user pass => exact ⟨u, hu, by simpa [checkAuthUrl_filled] using hcheck⟩
        | register user pass mail => exact ⟨u', hu', by simpa [checkAuthUrl_filled] using hcheck'⟩

/-- What is captured of a request's URL: the address, with the request behind it. -/
theorem captures_reqUrl {m : LoginManager} {r : LoginRequest} {u : Url}
    (h : Url.captures (m.baseUrl r).toList = some u) (hnul : Char.ofNat 0 ∉ (m.baseUrl r).toList) :
    Url.captures (m.reqUrl r).toList = some (u.append (cString (query r).toList)) := by
  rw [reqUrl_eq, String.toList_append]
  exact Url.captures_append h hnul

/-- An address with a zero in it is all that is seen of a request's URL. -/
theorem captures_reqUrl_of_nul {m : LoginManager} {r : LoginRequest}
    (hnul : Char.ofNat 0 ∈ (m.baseUrl r).toList) :
    Url.captures (m.reqUrl r).toList = Url.captures (m.baseUrl r).toList := by
  have hcut : cString ((m.baseUrl r).toList ++ (query r).toList) = cString (m.baseUrl r).toList := by
    unfold cString
    rw [List.takeWhile_append, if_neg]
    intro hlen
    have hself := (List.takeWhile_prefix _).eq_of_length hlen
    simpa using List.takeWhile_eq_self_iff.1 hself _ hnul
  rw [reqUrl_eq, String.toList_append, Url.captures, hcut, Url.captures]

/-- A request begins with a question mark. -/
theorem cString_query (r : LoginRequest) : ∃ l, cString (query r).toList = '?' :: l := by
  cases r <;> simp [query, cString, String.toList_append]

/-- **Where a login goes.** Every request of a manager that is constructed has a URL that can be
parsed. Its host is one of the five if and only if the address from the configuration has a path. -/
theorem request_checked_iff {m m' : LoginManager} (h : m.construct = .ok m') (r : LoginRequest) :
    ∃ v, Url.parse (m'.reqUrl r).toList = .ok v ∧
      (checkAuthUrl v = true ↔ HasPath (m'.baseUrl r)) := by
  obtain ⟨u, hu, hcheck⟩ := checked_of_construct h r
  by_cases hnul : Char.ofNat 0 ∈ (m'.baseUrl r).toList
  · refine ⟨_, by rw [Url.parse, captures_reqUrl_of_nul hnul, hu], ?_⟩
    exact iff_of_true hcheck (.inr hnul)
  · refine ⟨_, by rw [Url.parse, captures_reqUrl hu hnul], ?_⟩
    rw [checkAuthUrl_filled]
    by_cases hfile : u.file = []
    · obtain ⟨l, hl⟩ := cString_query r
      refine iff_of_false ?_ ?_
      · rw [Bool.not_eq_true]
        refine checkAuthUrl_of_mem ?_
        simp [Url.append, hfile, hl]
      · rintro (⟨v, hv, hpath⟩ | hzero)
        · rw [hu] at hv
          cases hv
          exact hpath hfile
        · exact hnul hzero
    · refine iff_of_true ?_ (.inl ⟨u, hu, hfile⟩)
      rw [Url.append, if_neg hfile]
      exact hcheck

/-- The addresses that are there without a configuration. -/
theorem request_checked_default : ∃ v,
    Url.parse (reqUrl {} (.login "alice" "secret")).toList = .ok v ∧
      (checkAuthUrl v = true ↔ HasPath (baseUrl {} (.login "alice" "secret"))) :=
  request_checked_iff (m := {}) rfl (.login "alice" "secret")

end LoginManager

end RvHouse
