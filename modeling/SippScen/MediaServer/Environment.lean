import Mathlib.Data.List.Nodup
import Mathlib.Data.List.TakeWhile
import SippScen.MediaServer.Launch

/-!
# The environment of an endpoint

`launch_background` executes `media_endpoint` with an environment of its own: the
address of the database, which the server has under other names.  A variable
that is not set leaves an empty string in the environment.
-/

namespace SippScen.MediaServer

open SippScen.Support

/-- The strings of an environment. -/
abbrev Environ := List CString

/-- The value in an environment string, if it belongs to the variable. -/
def valueIn (name s : CString) : Option CString :=
  if (name ++ ['=']) <+: s then some (s.drop (name.length + 1)) else none

/-- `getenv`: the first string counts. -/
def getenv (environ : Environ) (name : CString) : Option CString :=
  environ.findSome? (valueIn name)

/-- `setenvvar`. -/
def setenvvar (environ : Environ) (var name : CString) : CString :=
  match getenv environ name with
  | none => []
  | some env => var ++ '=' :: env

/-- The `envp` that `launch_background` builds. -/
def launchEnvp (environ : Environ) : Environ :=
  [ setenvvar environ "influx_URL".toList "URL".toList,
    setenvvar environ "influx_token".toList "token".toList,
    setenvvar environ "influx_org".toList "org".toList,
    setenvvar environ "influx_bucket".toList "bucket".toList ]

variable {environ : Environ} {name var env : CString}

/-! ## What the endpoint finds -/

theorem valueIn_self (name env : CString) :
    valueIn name (name ++ '=' :: env) = some env := by
  have hmine : (name ++ ['=']) <+: name ++ '=' :: env :=
    ⟨env, by rw [List.append_assoc, List.singleton_append]⟩
  rw [valueIn, if_pos hmine, List.drop_append, List.drop_of_length_le (by simp),
    List.nil_append, Nat.add_sub_cancel_left, List.drop_succ_cons,
    List.drop_zero]

theorem valueIn_other (hname : '=' ∉ name) (hvar : '=' ∉ var)
    (hne : name ≠ var) : valueIn name (var ++ '=' :: env) = none := by
  refine if_neg ?_
  rintro ⟨rest, heq⟩
  have htake : ∀ word : CString, '=' ∉ word → ∀ tail : CString,
      (word ++ '=' :: tail).takeWhile (· ≠ '=') = word := by
    intro word hword tail
    rw [List.takeWhile_append_of_pos, List.takeWhile_cons_of_neg (by simp),
      List.append_nil]
    intro c hc
    simpa using ne_of_mem_of_not_mem hc hword
  rw [List.append_assoc, List.singleton_append] at heq
  apply hne
  rw [← htake name hname rest, heq, htake var hvar env]

theorem valueIn_nil (name : CString) : valueIn name [] = none :=
  if_neg (by simp)

theorem valueIn_setenvvar (environ : Environ) (hname : '=' ∉ name)
    (hvar : '=' ∉ var) (serverName : CString) :
    valueIn name (setenvvar environ var serverName) =
      if name = var then getenv environ serverName else none := by
  unfold setenvvar
  cases getenv environ serverName with
  | none => rw [valueIn_nil, ite_self]
  | some env =>
      by_cases hsame : name = var
      · rw [if_pos hsame, hsame]
        exact valueIn_self var env
      · rw [if_neg hsame]
        exact valueIn_other hname hvar hsame

/-- Each variable of a table is found with the value that it has under its other
name. -/
theorem getenv_setenvvar (environ : Environ)
    (table : List (CString × CString))
    (hvars : ∀ entry ∈ table, '=' ∉ entry.1)
    (hnodup : (table.map Prod.fst).Nodup) {entry : CString × CString}
    (hentry : entry ∈ table) :
    getenv (table.map fun e => setenvvar environ e.1 e.2) entry.1 =
      getenv environ entry.2 := by
  have hname := hvars entry hentry
  induction table with
  | nil => cases hentry
  | cons first table ih =>
      rw [List.map_cons, List.nodup_cons] at hnodup
      obtain ⟨hfirst, hnodup⟩ := hnodup
      have hrest := fun e he => hvars e (List.mem_cons_of_mem _ he)
      rw [List.map_cons, getenv, List.findSome?_cons,
        valueIn_setenvvar environ hname (hvars first List.mem_cons_self)]
      rcases List.mem_cons.mp hentry with rfl | hmem
      · rw [if_pos rfl]
        cases getenv environ entry.2 with
        | some env => rfl
        | none =>
            -- an unset variable leaves nothing that the rest could contain
            refine List.findSome?_eq_none_iff.mpr fun s hs => ?_
            obtain ⟨e, he, rfl⟩ := List.mem_map.mp hs
            rw [valueIn_setenvvar environ hname (hrest e he), if_neg]
            rintro heq
            exact hfirst (heq ▸ List.mem_map_of_mem he)
      · rw [if_neg]
        · exact ih hrest hnodup hmem
        · rintro heq
          exact hfirst (heq ▸ List.mem_map_of_mem hmem)

/-- The variables of `launch_background`. -/
def influxVars : List (CString × CString) :=
  [ ("influx_URL".toList, "URL".toList),
    ("influx_token".toList, "token".toList),
    ("influx_org".toList, "org".toList),
    ("influx_bucket".toList, "bucket".toList) ]

/-- The endpoint finds what the server has under the other names. -/
theorem getenv_launchEnvp (environ : Environ) (entry : CString × CString)
    (hentry : entry ∈ influxVars) :
    getenv (launchEnvp environ) entry.1 = getenv environ entry.2 :=
  getenv_setenvvar environ influxVars (by decide) (by decide) hentry

end SippScen.MediaServer
