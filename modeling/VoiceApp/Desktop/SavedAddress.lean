import Mathlib.Data.List.TakeWhile
import VoiceApp.Desktop.Frontend

/-! # The saved server address

The login page puts the port behind the address, and the voice client takes everything in
front of the first colon for the address. The one undoes the other for addresses without a
colon, and with others no client connects.
-/
namespace VoiceApp.Desktop.Frontend
open Protocol Sdk

/-- Up to the first colon there is no colon, and nothing is lost if there is none at all. -/
theorem serverAddr_append_iff (address : String) {port : String} {rest : List Char}
    (hport : port.toList = ':' :: rest) : serverAddr (address ++ port) = address ↔ ':' ∉ address.toList := by
  have htake : serverAddr (address ++ port) = String.ofList (address.toList.takeWhile (· ≠ ':')) := by
    refine congrArg String.ofList ?_
    rw [String.toList_append,hport]
    induction address.toList with
    | nil => rfl
    | cons c rest ih => rw [List.cons_append,List.takeWhile_cons,List.takeWhile_cons,ih]
  rw [htake,← String.toList_inj,String.toList_ofList,List.takeWhile_eq_self_iff]
  simp only [ne_eq,decide_not,Bool.not_eq_eq_eq_not,Bool.not_true,decide_eq_false_iff_not]
  exact ⟨fun h hcolon => h _ hcolon rfl,fun h c hc hcolon => h (hcolon ▸ hc)⟩

namespace LoginPage

/-- The page after these messages. -/
def after (config : ServerConfig) (messages : List Message) : LoginPage :=
  messages.foldl (fun page message => (page.update message).1) (.new config)

/-- Whether the form is filled is known at all times. -/
theorem formFilled_after (config : ServerConfig) (messages : List Message) :
    (after config messages).formFilled = (after config messages).isFormFilled := by
  induction messages using List.reverseRecOn with
  | nil => rfl
  | append_singleton messages message ih =>
    rw [after,List.foldl_append]
    change ((after config messages).update message).1.formFilled =
      ((after config messages).update message).1.isFormFilled
    unfold update
    split
    · rfl
    · rfl
    all_goals exact ih

/-- The page sends one command, if the form is filled. -/
theorem submitted {page : LoginPage} {command : VoiceCommand}
    (h : .done (.executeVoiceCommand command) ∈ (page.update (.loginPage .loginSubmitted)).2) :
    page.formFilled = true ∧
      command = .connect (page.voiceUrl ++ ":9001") (page.voiceUrl ++ ":9002") page.username := by
  change _ ∈ (if page.formFilled = true then _ else _) at h
  split at h
  case isTrue hfilled =>
    rw [List.mem_singleton] at h
    cases h
    exact ⟨hfilled,rfl⟩
  case isFalse => cases h

end LoginPage

/-- A login that is accepted is one that has connected, and comes with the address cut off the
one that was dialled. -/
theorem accepted {attempt : Attempt} {managementAddr voiceAddr username : String} {x : UInt64 × String × String}
    (h : (VoiceCommand.connect managementAddr voiceAddr username).Answers attempt (.connect (.ok x))) :
    attempt.connect managementAddr voiceAddr username = .ok x.1 ∧
      x.2 = (serverAddr managementAddr,username) := by
  generalize hresult : VoiceCommandResult.connect (.ok x) = result at h
  cases h with
  | connect =>
    cases hconnect : attempt.connect managementAddr voiceAddr username with
    | error e =>
      rw [hconnect] at hresult
      cases hresult
    | ok userId =>
      rw [hconnect] at hresult
      cases hresult
      exact ⟨rfl,rfl⟩

/-- The saved address is the one that was entered, and is sent again at the next start, if and
only if it contains no colon. -/
theorem saved_iff {page : LoginPage} (saved : ServerConfig) (userId : UInt64)
    (hform : page.isFormFilled = true) :
    let config := saved.update (.voiceCommandResult
      (.connect (.ok (userId,serverAddr (page.voiceUrl ++ ":9001"),page.username))))
    (config.address = page.voiceUrl ∧ config.autoLogin = [.done (.executeVoiceCommand
      (.connect (page.voiceUrl ++ ":9001") (page.voiceUrl ++ ":9002") page.username))]) ↔
      ':' ∉ page.voiceUrl.toList := by
  have hcut : serverAddr (page.voiceUrl ++ ":9001") = page.voiceUrl ↔ ':' ∉ page.voiceUrl.toList :=
    serverAddr_append_iff page.voiceUrl rfl
  rw [← hcut]
  refine ⟨fun h => h.1,fun h => ⟨h,?_⟩⟩
  change ServerConfig.autoLogin ⟨serverAddr (page.voiceUrl ++ ":9001"),page.username⟩ = _
  rw [h,ServerConfig.autoLogin,if_pos]
  rw [LoginPage.isFormFilled,Bool.and_comm] at hform
  exact hform

/-- What is submitted and accepted is saved as it was entered, and sent again at the next
start. -/
theorem saved_as_entered {attempt : Attempt} {config : ServerConfig} {messages : List Message}
    {command : VoiceCommand} {x : UInt64 × String × String} (saved : ServerConfig)
    (hdocumented : attempt.Documented)
    (hsubmitted : .done (.executeVoiceCommand command) ∈
      ((LoginPage.after config messages).update (.loginPage .loginSubmitted)).2)
    (haccepted : command.Answers attempt (.connect (.ok x))) :
    (saved.update (.voiceCommandResult (.connect (.ok x)))).address =
        (LoginPage.after config messages).voiceUrl ∧
      (saved.update (.voiceCommandResult (.connect (.ok x)))).autoLogin =
        [.done (.executeVoiceCommand command)] := by
  obtain ⟨hform,hcommand⟩ := LoginPage.submitted hsubmitted
  rw [LoginPage.formFilled_after] at hform
  generalize LoginPage.after config messages = page at *
  subst hcommand
  obtain ⟨hconnect,hcut⟩ := accepted haccepted
  obtain ⟨userId,address,username⟩ := x
  obtain ⟨rfl,rfl⟩ := Prod.mk.inj hcut
  exact (saved_iff saved userId hform).mpr (Attempt.connect_host hdocumented hconnect)

/-- What a user types in. -/
def entered (address username : String) : List Message :=
  [.loginPage (.voiceUrlChanged address),.loginPage (.usernameChanged username)]

theorem saved_host :
    ((⟨"",""⟩ : ServerConfig).update (.voiceCommandResult (.connect (.ok (1,"host","ann"))))).address =
      "host" ∧
    ((⟨"",""⟩ : ServerConfig).update (.voiceCommandResult (.connect (.ok (1,"host","ann"))))).autoLogin =
      [.done (.executeVoiceCommand (.connect "host:9001" "host:9002" "ann"))] :=
  @saved_as_entered Attempt.oneServer ⟨"",""⟩ (entered "host" "ann") _ _ ⟨"",""⟩
    Attempt.oneServer_documented (List.mem_singleton.mpr rfl) oneServer_answers

end VoiceApp.Desktop.Frontend
