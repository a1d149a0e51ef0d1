import Sshdt.Config.Basic

/-
  What a session channel is asked to run and the command it
  becomes (`src/session.rs`, `src/util.rs`).

  Key definitions include:
    * `PtyRequest`
    * `SessionRequest`
    * `SessionCommand`
    * `currentOsUser`
    * `splitCommandLine`
    * `DefaultResolver`
-/

------------------------------------------------------------
-- Requests And Commands
------------------------------------------------------------

namespace Sshdt

/- `PtyRequest`. -/
structure PtyRequest where
  term : Text
  cols : UInt16
  rows : UInt16
  pixelWidth : UInt16
  pixelHeight : UInt16
  deriving DecidableEq, Repr

/- `SessionRequest`. -/
inductive SessionRequest where
  | shell (pty : Option PtyRequest)
  | exec (command : Text) (pty : Option PtyRequest)
  deriving DecidableEq, Repr

/- `SessionRequest::pty`. -/
def SessionRequest.pty : SessionRequest → Option PtyRequest
  | .shell pty => pty
  | .exec _ pty => pty

/- `SessionCommand`. -/
structure SessionCommand where
  program : Text
  args : List Text
  env : List (Text × Text)
  cwd : Option PathBuf
  deriving DecidableEq, Repr

/- `CommandResolver`. -/
abbrev CommandResolver : Type :=
  SessionRequest → SessionCommand

end Sshdt

------------------------------------------------------------
-- Shared Helpers
------------------------------------------------------------

namespace Sshdt

/- `current_os_user`. -/
def currentOsUser
    (host : Host) : Option Text :=
  ["USER".toList, "LOGNAME".toList, "USERNAME".toList].findSome?
    fun var =>
      (host.envVar var).filter fun value => !value.isEmpty

/- The loop variables of `split_command_line`. -/
structure SplitState where
  out : List Text
  cur : Text
  inSingle : Bool
  inDouble : Bool
  hasToken : Bool
  deriving DecidableEq, Repr

namespace SplitState

/- The variables before the first character. -/
def initial : SplitState where
  out := []
  cur := []
  inSingle := false
  inDouble := false
  hasToken := false

/- `cur.push`, with the token marked as started. -/
def pushChar
    (st : SplitState)
    (c : Char) : SplitState :=
  { st with cur := st.cur ++ [c], hasToken := true }

/- The end of a token at unquoted whitespace. -/
def endToken
    (st : SplitState) : SplitState :=
  if st.hasToken then
    { st with
      out := st.out ++ [st.cur], cur := [], hasToken := false }
  else
    st

end SplitState

/- The loop of `split_command_line`. -/
def splitLoop
    (st : SplitState) : List Char → SplitState
  | [] => st
  | c :: rest =>
      if c = '\\' && !st.inSingle then
        -- An escape takes the next character as it is; a
        -- backslash at the end of the input is dropped.
        match rest with
        | [] => st
        | next :: rest => splitLoop (st.pushChar next) rest
      else if c = '\'' && !st.inDouble then
        splitLoop
          { st with inSingle := !st.inSingle, hasToken := true }
          rest
      else if c = '"' && !st.inSingle then
        splitLoop
          { st with inDouble := !st.inDouble, hasToken := true }
          rest
      else if Text.isWhitespace c && !st.inSingle &&
          !st.inDouble then
        splitLoop st.endToken rest
      else
        splitLoop (st.pushChar c) rest

/- `split_command_line`. -/
def splitCommandLine
    (input : Text) : List Text :=
  let st := splitLoop .initial input
  if st.hasToken then st.out ++ [st.cur] else st.out

end Sshdt

------------------------------------------------------------
-- Default Command Resolver
------------------------------------------------------------

namespace Sshdt

/- `session_start_dir`. -/
def sessionStartDir
    (host : Host) : Option PathBuf :=
  host.homeDir.filter host.isDir

/- `exec_flag`. -/
def execFlag
    (shell : Text) : Text :=
  let lower :=
    Text.toAsciiLowercase ((Path.fileName shell).getD shell)
  if lower = "cmd".toList || lower = "cmd.exe".toList then
    "/C".toList
  else
    "-c".toList

/- `default_shell` on Unix. -/
def defaultShell
    (host : Host) : List Text :=
  match host.envVar "SHELL".toList with
  | some s => if s.isEmpty then ["/bin/sh".toList] else [s]
  | none => ["/bin/sh".toList]

namespace DefaultResolver

/- `DefaultResolver::new`: the shell command line. -/
def new
    (host : Host)
    (shell : Option Text) : List Text :=
  match shell with
  | some s =>
      if (splitCommandLine s).isEmpty then
        defaultShell host
      else
        splitCommandLine s
  | none => defaultShell host

/- `DefaultResolver::resolve`. -/
def resolve
    (host : Host)
    (shell : List Text) : CommandResolver
  | .shell _ => {
      program := shell.head?.getD "/bin/sh".toList
      args := shell.tail
      env := []
      cwd := sessionStartDir host }
  | .exec command _ =>
      let program := shell.head?.getD "/bin/sh".toList
      { program
        args := [execFlag program, command]
        env := []
        cwd := sessionStartDir host }

end DefaultResolver

end Sshdt
