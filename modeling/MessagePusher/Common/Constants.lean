import MessagePusher.Common.Text

/-!
# Constants and settings of the package `common`

The constants are those of `constants.go`. `Settings` holds the name of the system and the
variables of the same file that have an option; an administrator may give them any value.
-/

namespace MessagePusher.Common

def roleGuestUser : Int := 0
def roleCommonUser : Int := 1
def roleAdminUser : Int := 10
def roleRootUser : Int := 100

def userStatusNonExisted : Int := 0
def userStatusEnabled : Int := 1
def userStatusDisabled : Int := 2

def sendEmailToOthersAllowed : Int := 1
def sendEmailToOthersDisallowed : Int := 2

def saveMessageToDatabaseAllowed : Int := 1
def saveMessageToDatabaseDisallowed : Int := 2

def messageSendStatusPending : Int := 1
def messageSendStatusSent : Int := 2
def messageSendStatusFailed : Int := 3
def messageSendStatusAsyncPending : Int := 4

def channelStatusEnabled : Int := 1
def channelStatusDisabled : Int := 2

def webhookStatusEnabled : Int := 1

def itemsPerPage : Int := 10

/-- The name of the system, and the variables that an option sets. -/
structure Settings where
  systemName : String := "消息推送服务"
  serverAddress : String := "http://localhost:3000"
  footer : String := ""
  homePageLink : String := ""
  passwordLoginEnabled : Bool := true
  passwordRegisterEnabled : Bool := true
  emailVerificationEnabled : Bool := false
  gitHubOAuthEnabled : Bool := false
  weChatAuthEnabled : Bool := false
  turnstileCheckEnabled : Bool := false
  registerEnabled : Bool := true
  messagePersistenceEnabled : Bool := true
  messageRenderEnabled : Bool := true
  smtpServer : String := ""
  smtpPort : Int := 587
  smtpAccount : String := ""
  smtpToken : String := ""
  gitHubClientId : String := ""
  gitHubClientSecret : String := ""
  weChatServerAddress : String := ""
  weChatServerToken : String := ""
  weChatAccountQRCodeImageURL : String := ""
  turnstileSiteKey : String := ""
  turnstileSecretKey : String := ""
  fileUploadPermission : Int := roleGuestUser
  fileDownloadPermission : Int := roleGuestUser
  imageUploadPermission : Int := roleGuestUser
  imageDownloadPermission : Int := roleGuestUser
deriving DecidableEq

end MessagePusher.Common
