import Mathlib.Tactic

/-!
# Util/Error — the library's error codes

`include/tr50/error.h`.  Every code is negative; `0` is success.
-/

namespace Tr50

/-! ## TR50 -/

def errTr50Parms : ℤ := -18001
def errTr50Malloc : ℤ := -18002
def errTr50NotConnected : ℤ := -18003
def errTr50CmdUnknown : ℤ := -18004
def errTr50ReqTimeout : ℤ := -18005
def errTr50CodeMissing : ℤ := -18006
def errTr50JsonInvalid : ℤ := -18007
def errTr50Badhandle : ℤ := -18008
def errTr50Timeout : ℤ := -18009
def errTr50AsyncClientNotConnected : ℤ := -18010
def errTr50MqttRecvDecodeHdrLen : ℤ := -18011
def errTr50TcpTimeout : ℤ := -18012
def errTr50AlreadyStarted : ℤ := -18013
def errTr50AlreadyStopped : ℤ := -18014
def errTr50CompressInflate : ℤ := -18020
def errTr50AsyncClientSameThread : ℤ := -18021
def errTr50Stopping : ℤ := -18022
def errTr50HttpProxyFailed : ℤ := -18026
def errTr50CompressNotSupported : ℤ := -18027
def errTr50ReplyInvalid : ℤ := -18028
def errTr50CmdIdNotFound : ℤ := -18029
def errTr50MethodUnknown : ℤ := -18030

/-! ## AT commands -/

def errTr50AtStorageFull : ℤ := -18101
def errTr50AtSendModeUnknown : ℤ := -18102
def errTr50AtStorageNotfound : ℤ := -18103
def errTr50AtAttachFail : ℤ := -18106
def errTr50AtExecFail : ℤ := -18107
def errTr50AtUnevenParams : ℤ := -18108
def errTr50AtExecInProgress : ℤ := -18109
def errAtTokenCmdNotMatch : ℤ := -19002
def errAtCmdNotSupported : ℤ := -19003

/-! ## Sockets -/

def errTr50SockSelectFailed : ℤ := -18305
def errTr50SockOther : ℤ := -18306
def errTr50ProxyConnFailed : ℤ := -18307
def errTr50ProxyProtoBad : ℤ := -18308
def errTr50SockProxyAuthRejected : ℤ := -18311
def errTr50SockProxyOther : ℤ := -18312
def errTr50SockProxyAuthUnsup : ℤ := -18313
def errTr50SockHostnotfound : ℤ := -18315
def errTr50SockSendFailed : ℤ := -18321
/-- The socket layer's timeout *is* the TCP timeout. -/
def errTr50SockTimeout : ℤ := errTr50TcpTimeout
def errTr50SockBadTimeout : ℤ := errTr50TcpTimeout
def errTr50SockRecvFailed : ℤ := -18323
def errTr50SockShutdown : ℤ := -18324
def errTr50SslGeneric : ℤ := -18325

/-! ## MQTT -/

def errMqttMsgConnackType : ℤ := -18201
def errMqttMsgConnackLength : ℤ := -18202
def errMqttMsgConnackUnknownReturn : ℤ := -18203
def errMqttMsgConnackId : ℤ := -18205
def errMqttMsgConnackBroker : ℤ := -18206
def errMqttMsgConnackLogin : ℤ := -18207
def errMqttMsgConnackNotAuthorized : ℤ := -18208
def errMqttMsgPubackLength : ℤ := -18211
def errMqttMsgPubackType : ℤ := -18212
def errMqttMsgPublishLength : ℤ := -18213
def errMqttMsgPublishType : ℤ := -18214
def errMqttMsgPublishDecodeHdrLen : ℤ := -18215
def errMqttMsgSubackLength : ℤ := -18216
def errMqttMsgSubackType : ℤ := -18217
def errMqttMsgSubackQosFailure : ℤ := -18218
def errMqttMsgUnsubackLength : ℤ := -18219
def errMqttMsgUnsubackType : ℤ := -18220
def errMqttQosFailure : ℤ := -18221
def errMqttQosStopping : ℤ := -18222
def errMqttQosFull : ℤ := -18223
def errMqttQosNotfound : ℤ := -18224

end Tr50
